import Mathlib.Data.List.Basic
import Mathlib.Data.List.Infix
import Notebook.Text.Utf8

/-!
# Decoding in parts

What a decoder makes of bytes depends on what came before them only by the start of a
character that it has read: `scan_append` decodes a stream in two parts.  From such a start on,
a stream is read in one of two ways.  If the next byte goes on with the character, nothing is
lost; if not, the start becomes one replacement character and the byte begins anew.

* `lossyFrom_some_of_not_goesOn`: a start that is not gone on with may as well be replaced at
  once.
* `length_lossyFrom_lt`: a start that is gone on with may not; replacing it at once gives more
  characters.
* `scan_encode`: the bytes of a text are decoded to the text.
* `scan_of_prefix`: a start of these bytes is the bytes of a start of the text and the start of
  one more character.
-/

set_option autoImplicit false

namespace Notebook
namespace Utf8

namespace Partial

/-- The byte goes on with the character. -/
def GoesOn (p : Partial) (b : UInt8) : Prop :=
  p.low ≤ b ∧ b ≤ p.high

/-- Only a continuation byte goes on with the character. -/
structure Sound (p : Partial) : Prop where
  low : 0x80 ≤ p.low
  high : p.high ≤ 0xBF

/-- The character with one more byte. -/
def next (p : Partial) (b : UInt8) : Partial :=
  ⟨p.bits * 64 + (b.toNat - 0x80), p.read + 1, p.due - 1, 0x80, 0xBF⟩

@[simp]
theorem read_next (p : Partial) (b : UInt8) : (p.next b).read = p.read + 1 := rfl

@[simp]
theorem due_next (p : Partial) (b : UInt8) : (p.next b).due = p.due - 1 := rfl

theorem Sound.next {p : Partial} (b : UInt8) : (p.next b).Sound :=
  ⟨UInt8.le_refl _, UInt8.le_refl _⟩

end Partial

/-- The number of bytes that are held back. -/
def held (tail : Option Partial) : Nat :=
  tail.elim 0 (·.read)

/-- The text of a whole stream whose first character may have been begun before. -/
def lossyFrom (tail : Option Partial) (bytes : List UInt8) : List Char :=
  (scan tail bytes).closed

namespace Scan

/-- Two parts of a stream, the second decoded from where the first one ends. -/
def append (s s' : Scan) : Scan :=
  ⟨s'.newest ++ s.newest, s.flawed || s'.flawed, s'.tail⟩

@[simp]
theorem text_append (s s' : Scan) : (s.append s').text = s.text ++ s'.text := by
  simp [append, text]

@[simp]
theorem closed_append (s s' : Scan) : (s.append s').closed = s.text ++ s'.closed := by
  have htail : (s.append s').tail = s'.tail := rfl
  rw [closed, closed, text_append, htail]
  cases s'.tail with
  | none => rfl
  | some p => exact List.append_assoc _ _ _

theorem append_assoc (s s' s'' : Scan) :
    (s.append s').append s'' = s.append (s'.append s'') := by
  simp [append, Bool.or_assoc]

theorem first_eq (s : Scan) (b : UInt8) : s.first b = s.append (first (resume none) b) := by
  unfold first
  cases lead b <;> simp [append, resume]

/-- A byte is decoded from what is held back alone. -/
theorem step_eq (s : Scan) (b : UInt8) : s.step b = s.append (step (resume s.tail) b) := by
  obtain ⟨newest, flawed, tail⟩ := s
  cases tail with
  | none => exact first_eq _ b
  | some p =>
      simp only [step, resume]
      split
      · split <;> simp [append]
      · rw [first_eq, first_eq ⟨[replacement], true, none⟩, ← append_assoc]
        simp [append]

end Scan

/-! ## Two parts of a stream -/

@[simp]
theorem scan_nil (tail : Option Partial) : scan tail [] = .resume tail := rfl

theorem foldl_step (bytes : List UInt8) (s : Scan) :
    bytes.foldl Scan.step s = s.append (scan s.tail bytes) := by
  induction bytes generalizing s with
  | nil => simp [Scan.append, Scan.resume]
  | cons b rest ih =>
      have hrest : scan s.tail (b :: rest) =
          (Scan.step (.resume s.tail) b).append
            (scan (Scan.step (.resume s.tail) b).tail rest) := ih _
      rw [List.foldl_cons, ih, hrest, Scan.step_eq s b, Scan.append_assoc]
      rfl

/-- A stream is decoded in two parts. -/
theorem scan_append (tail : Option Partial) (bytes more : List UInt8) :
    scan tail (bytes ++ more) = (scan tail bytes).append (scan (scan tail bytes).tail more) := by
  rw [scan, List.foldl_append, foldl_step more]
  rfl

theorem scan_cons (tail : Option Partial) (b : UInt8) (rest : List UInt8) :
    scan tail (b :: rest) =
      (Scan.step (.resume tail) b).append (scan (Scan.step (.resume tail) b).tail rest) :=
  scan_append tail [b] rest

theorem lossyFrom_append (tail : Option Partial) (bytes more : List UInt8) :
    lossyFrom tail (bytes ++ more) =
      (scan tail bytes).text ++ lossyFrom (scan tail bytes).tail more := by
  rw [lossyFrom, scan_append, Scan.closed_append]
  rfl

/-- Without a flaw in the whole there is none in a part. -/
theorem flawed_of_append {tail : Option Partial} {bytes more : List UInt8}
    (h : (scan tail (bytes ++ more)).flawed = false) :
    (scan tail bytes).flawed = false ∧ (scan (scan tail bytes).tail more).flawed = false := by
  rw [scan_append] at h
  exact Bool.or_eq_false_iff.mp h

/-! ## Single bytes -/

theorem step_of_goesOn {p : Partial} {b : UInt8} (h : p.GoesOn b) :
    Scan.step (.resume (some p)) b =
      if p.due ≤ 1 then ⟨[Char.ofNat (p.next b).bits], false, none⟩
      else ⟨[], false, some (p.next b)⟩ := by
  simp only [Scan.step, Scan.resume]
  rw [if_pos (show p.low ≤ b ∧ b ≤ p.high from h)]
  rfl

theorem scan_some_of_not_goesOn {p : Partial} {b : UInt8} (h : ¬p.GoesOn b)
    (rest : List UInt8) :
    scan (some p) (b :: rest) =
      Scan.append ⟨[replacement], true, none⟩ (scan none (b :: rest)) := by
  have hstep : Scan.step (.resume (some p)) b =
      Scan.append ⟨[replacement], true, none⟩ (Scan.step (.resume none) b) := by
    simp only [Scan.step, Scan.resume]
    rw [if_neg (show ¬(p.low ≤ b ∧ b ≤ p.high) from h), Scan.first_eq]
    rfl
  rw [scan_cons, scan_cons none, hstep, Scan.append_assoc]
  rfl

/-- What a first byte starts is gone on with by continuation bytes. -/
theorem sound_of_lead {b : UInt8} {p : Partial} (h : lead b = .start p) : p.Sound := by
  have hopening : ∀ {bits due : Nat} {low high : UInt8}, opening bits due low high = .start p →
      0x80 ≤ low → high ≤ 0xBF → p.Sound := by
    intro bits due low high hstart hlow hhigh
    obtain rfl := Lead.start.inj hstart
    exact ⟨hlow, hhigh⟩
  unfold lead at h
  iterate 2
    split at h
    · cases h
  iterate 7
    split at h
    · exact hopening h (by decide) (by decide)
  cases h

/-- A continuation byte starts no character. -/
theorem lead_of_goesOn {p : Partial} (hp : p.Sound) {b : UInt8} (h : p.GoesOn b) :
    lead b = .flaw := by
  have hlow := UInt8.le_trans hp.low h.1
  have hhigh := UInt8.le_trans h.2 hp.high
  rw [UInt8.le_iff_toNat_le] at hlow hhigh
  have hhead : ¬b < 0x80 := by
    rw [UInt8.lt_iff_toNat_lt]
    exact Nat.not_lt.mpr hlow
  have hnext : b < 0xC2 := by
    rw [UInt8.lt_iff_toNat_lt]
    exact Nat.lt_of_le_of_lt hhigh (by decide)
  rw [lead, if_neg hhead, if_pos hnext]

theorem sound_step {tail : Option Partial} (ht : ∀ p ∈ tail, p.Sound) (b : UInt8) :
    ∀ p ∈ (Scan.step (.resume tail) b).tail, p.Sound := by
  have hfirst : ∀ s : Scan, ∀ p ∈ (s.first b).tail, p.Sound := by
    intro s p hp
    unfold Scan.first at hp
    cases hlead : lead b with
    | whole c =>
        rw [hlead] at hp
        cases hp
    | start q =>
        rw [hlead] at hp
        obtain rfl := Option.some.inj hp
        exact sound_of_lead hlead
    | flaw =>
        rw [hlead] at hp
        cases hp
  cases tail with
  | none => exact hfirst _
  | some q =>
      by_cases hq : q.GoesOn b
      · rw [step_of_goesOn hq]
        split
        · exact nofun
        · intro p hp
          obtain rfl := Option.some.inj hp
          exact .next b
      · intro p hp
        simp only [Scan.step, Scan.resume] at hp
        rw [if_neg (show ¬(q.low ≤ b ∧ b ≤ q.high) from hq)] at hp
        exact hfirst _ p hp

/-- At first nothing is held back. -/
theorem sound_none : ∀ p ∈ (none : Option Partial), p.Sound :=
  nofun

/-- Whatever is read, only continuation bytes go on with what is held back. -/
theorem sound_scan {tail : Option Partial} (ht : ∀ p ∈ tail, p.Sound) (bytes : List UInt8) :
    ∀ p ∈ (scan tail bytes).tail, p.Sound := by
  induction bytes generalizing tail with
  | nil => exact ht
  | cons b rest ih =>
      rw [scan_cons]
      exact ih (sound_step ht b)

/-! ## Starts that are given up -/

/-- A start that is not gone on with may as well be replaced at once. -/
theorem lossyFrom_some_of_not_goesOn {p : Partial} {bytes : List UInt8}
    (h : ∀ b ∈ bytes.head?, ¬p.GoesOn b) :
    lossyFrom (some p) bytes = replacement :: lossyFrom none bytes := by
  cases bytes with
  | nil => rfl
  | cons b rest =>
      rw [lossyFrom, scan_some_of_not_goesOn (h b rfl), Scan.closed_append]
      rfl

/-- A continuation byte that goes on with nothing is replaced. -/
theorem lossyFrom_none_of_goesOn {p : Partial} (hp : p.Sound) {b : UInt8} (h : p.GoesOn b)
    (rest : List UInt8) :
    lossyFrom none (b :: rest) = replacement :: lossyFrom none rest := by
  have hstep : Scan.step (.resume none) b = ⟨[replacement], true, none⟩ := by
    simp only [Scan.step, Scan.resume, Scan.first, lead_of_goesOn hp h]
  rw [lossyFrom, scan_cons, hstep, Scan.closed_append]
  rfl

/-- A character that is gone on with ends here, or it goes on. -/
theorem lossyFrom_some_of_goesOn {p : Partial} {b : UInt8} (h : p.GoesOn b)
    (rest : List UInt8) :
    lossyFrom (some p) (b :: rest) =
      if p.due ≤ 1 then Char.ofNat (p.next b).bits :: lossyFrom none rest
      else lossyFrom (some (p.next b)) rest := by
  rw [lossyFrom, scan_cons, step_of_goesOn h, Scan.closed_append]
  split <;> rfl

theorem length_lossyFrom_le {p : Partial} (hp : p.Sound) (bytes : List UInt8) :
    (lossyFrom (some p) bytes).length ≤ (lossyFrom none bytes).length + 1 := by
  induction bytes generalizing p with
  | nil => exact Nat.le_refl _
  | cons b rest ih =>
      by_cases h : p.GoesOn b
      · have hnext := ih (p := p.next b) (.next b)
        rw [lossyFrom_some_of_goesOn h, lossyFrom_none_of_goesOn hp h, List.length_cons]
        split
        · rw [List.length_cons]
          omega
        · omega
      · rw [lossyFrom_some_of_not_goesOn fun b' hb' => Option.some.inj hb' ▸ h]
        exact Nat.le_refl _

/-- A start that is gone on with may not be replaced at once. -/
theorem length_lossyFrom_lt {p : Partial} (hp : p.Sound) {b : UInt8} (h : p.GoesOn b)
    (rest : List UInt8) :
    (lossyFrom (some p) (b :: rest)).length < (lossyFrom none (b :: rest)).length + 1 := by
  have hnext := length_lossyFrom_le (p := p.next b) (.next b) rest
  rw [lossyFrom_some_of_goesOn h, lossyFrom_none_of_goesOn hp h, List.length_cons]
  split
  · rw [List.length_cons]
    omega
  · omega

/-! ## The bytes of a text -/

namespace Partial

/-- The bytes go on with the character, one after the other. -/
def Follows (p : Partial) : List UInt8 → Prop
  | [] => True
  | b :: rest => p.GoesOn b ∧ (p.next b).Follows rest

theorem Follows.of_append {p : Partial} {bytes more : List UInt8}
    (h : p.Follows (bytes ++ more)) : p.Follows bytes := by
  induction bytes generalizing p with
  | nil => trivial
  | cons b rest ih => exact ⟨h.1, ih h.2⟩

/-- A continuation byte, given by its bits. -/
theorem goesOn_ofNat {p : Partial} {n : Nat} (hn : n < 64) (hlow : p.low.toNat ≤ n + 128)
    (hhigh : n + 128 ≤ p.high.toNat) : p.GoesOn (UInt8.ofNat (n + 128)) := by
  unfold GoesOn
  rw [UInt8.le_iff_toNat_le, UInt8.le_iff_toNat_le,
    UInt8.toNat_ofNat_of_lt' (by simp only [UInt8.size]; omega)]
  exact ⟨hlow, hhigh⟩

theorem goesOn_next (p : Partial) (b : UInt8) {n : Nat} (hn : n < 64) :
    (p.next b).GoesOn (UInt8.ofNat (n + 128)) :=
  goesOn_ofNat hn (Nat.le_add_left _ _) (Nat.add_le_add_right (Nat.le_of_lt_succ hn) 128)

theorem next_ofNat (p : Partial) {n : Nat} (hn : n < 64) :
    p.next (UInt8.ofNat (n + 128)) = ⟨p.bits * 64 + n, p.read + 1, p.due - 1, 0x80, 0xBF⟩ := by
  have hbyte : (UInt8.ofNat (n + 128)).toNat - 0x80 = n := by
    rw [UInt8.toNat_ofNat_of_lt' (by simp only [UInt8.size]; omega)]
    omega
  unfold next
  rw [hbyte]

theorem read_foldl_next (p : Partial) (bytes : List UInt8) :
    (bytes.foldl next p).read = p.read + bytes.length := by
  induction bytes generalizing p with
  | nil => rfl
  | cons b rest ih =>
      rw [List.foldl_cons, ih, List.length_cons, read_next]
      omega

end Partial

/-- As long as bytes of a character are due, they are held back. -/
theorem scan_some_of_follows {p : Partial} {bytes : List UInt8} (h : p.Follows bytes)
    (hdue : bytes.length < p.due) :
    scan (some p) bytes = ⟨[], false, some (bytes.foldl Partial.next p)⟩ := by
  induction bytes generalizing p with
  | nil => rfl
  | cons b rest ih =>
      rw [List.length_cons] at hdue
      have hrest : rest.length < (p.next b).due := by
        rw [Partial.due_next]
        omega
      rw [scan_cons, step_of_goesOn h.1, if_neg (by omega), ih h.2 hrest]
      simp [Scan.append]

/-- With the last byte that is due the character is there. -/
theorem scan_some_of_completes {p : Partial} {bytes : List UInt8} (h : p.Follows bytes)
    (hdue : bytes.length = p.due) (hbytes : bytes ≠ []) :
    scan (some p) bytes = ⟨[Char.ofNat (bytes.foldl Partial.next p).bits], false, none⟩ := by
  induction bytes generalizing p with
  | nil => exact absurd rfl hbytes
  | cons b rest ih =>
      rw [List.length_cons] at hdue
      cases rest with
      | nil =>
          have hlast : p.due ≤ 1 := Nat.le_of_eq hdue.symm
          rw [scan_cons, step_of_goesOn h.1, if_pos hlast]
          simp [Scan.append, Scan.resume]
      | cons b' rest =>
          have hrest : (b' :: rest).length = (p.next b).due := by
            rw [Partial.due_next]
            omega
          have hmore : ¬p.due ≤ 1 := by
            rw [List.length_cons] at hdue
            omega
          rw [scan_cons, step_of_goesOn h.1, if_neg hmore, ih h.2 hrest (List.cons_ne_nil _ _)]
          simp [Scan.append]

/-- How the bytes of a character are read: the first of them is the character, or it starts
the character and the others complete it. -/
def Reads (c : Char) : List UInt8 → Prop
  | [] => False
  | b :: more =>
    lead b = .whole c ∧ more = [] ∨
      ∃ p, lead b = .start p ∧ p.read = 1 ∧ p.due = more.length ∧ more ≠ [] ∧ p.Follows more ∧
        Char.ofNat (more.foldl Partial.next p).bits = c

theorem lead_one {n : Nat} (h : n < 128) : lead (UInt8.ofNat n) = .whole (Char.ofNat n) := by
  have hbyte : UInt8.ofNat n < 0x80 := by
    rw [UInt8.lt_iff_toNat_lt, UInt8.toNat_ofNat_of_lt' (by simp only [UInt8.size]; omega)]
    exact h
  rw [lead, if_pos hbyte, UInt8.toNat_ofNat_of_lt' (by simp only [UInt8.size]; omega)]

theorem lead_two : ∀ n < 32, 2 ≤ n →
    lead (UInt8.ofNat (n + 192)) = opening n 1 0x80 0xBF := by
  decide

theorem lead_three : ∀ n < 16, lead (UInt8.ofNat (n + 224)) =
    opening n 2 (if n = 0 then 0xA0 else 0x80) (if n = 13 then 0x9F else 0xBF) := by
  decide

theorem lead_four : ∀ n < 5, lead (UInt8.ofNat (n + 240)) =
    opening n 3 (if n = 0 then 0x90 else 0x80) (if n = 4 then 0x8F else 0xBF) := by
  decide

/-- The bytes of a character are read as the character. -/
theorem reads_utf8EncodeChar (c : Char) : Reads c (String.utf8EncodeChar c) := by
  have hvalid : c.toNat < 0xD800 ∨ 0xDFFF < c.toNat ∧ c.toNat < 0x110000 := c.valid
  rw [String.utf8EncodeChar.eq_1]
  change Reads c (if c.toNat ≤ 127 then [UInt8.ofNat c.toNat]
    else if c.toNat ≤ 2047 then
      [UInt8.ofNat (c.toNat / 64 % 32 + 192), UInt8.ofNat (c.toNat % 64 + 128)]
    else if c.toNat ≤ 65535 then
      [UInt8.ofNat (c.toNat / 4096 % 16 + 224), UInt8.ofNat (c.toNat / 64 % 64 + 128),
        UInt8.ofNat (c.toNat % 64 + 128)]
    else
      [UInt8.ofNat (c.toNat / 262144 % 8 + 240), UInt8.ofNat (c.toNat / 4096 % 64 + 128),
        UInt8.ofNat (c.toNat / 64 % 64 + 128), UInt8.ofNat (c.toNat % 64 + 128)])
  have hchar : ∀ n, n = c.toNat → Char.ofNat n = c := by
    rintro n rfl
    exact Char.ofNat_toNat c
  generalize c.toNat = v at hvalid hchar
  split
  · next hone =>
      refine Or.inl ⟨?_, rfl⟩
      rw [lead_one (by omega), hchar v rfl]
  · split
    · next htwo =>
        have hlead := lead_two (v / 64 % 32) (by omega) (by omega)
        refine Or.inr ⟨_, hlead, rfl, rfl, List.cons_ne_nil _ _, ?_, ?_⟩
        · refine ⟨Partial.goesOn_ofNat (by omega) ?_ ?_, trivial⟩
          · exact Nat.le_add_left _ _
          · change v % 64 + 128 ≤ 191
            omega
        · rw [List.foldl_cons, List.foldl_nil, Partial.next_ofNat _ (by omega)]
          exact hchar _ (by simp only; omega)
    · split
      · next hthree =>
          have hlead := lead_three (v / 4096 % 16) (by omega)
          refine Or.inr ⟨_, hlead, rfl, rfl, List.cons_ne_nil _ _, ?_, ?_⟩
          · refine ⟨Partial.goesOn_ofNat (by omega) ?_ ?_, ?_⟩
            · -- No overlong form.
              dsimp only
              split
              · change 160 ≤ v / 64 % 64 + 128
                omega
              · exact Nat.le_add_left _ _
            · -- No half of a surrogate pair.
              dsimp only
              split
              · change v / 64 % 64 + 128 ≤ 159
                omega
              · change v / 64 % 64 + 128 ≤ 191
                omega
            · exact ⟨Partial.goesOn_next _ _ (by omega), trivial⟩
          · rw [List.foldl_cons, List.foldl_cons, List.foldl_nil,
              Partial.next_ofNat _ (by omega), Partial.next_ofNat _ (by omega)]
            exact hchar _ (by simp only; omega)
      · next hfour =>
          have hlead := lead_four (v / 262144 % 8) (by omega)
          refine Or.inr ⟨_, hlead, rfl, rfl, List.cons_ne_nil _ _, ?_, ?_⟩
          · refine ⟨Partial.goesOn_ofNat (by omega) ?_ ?_, ?_⟩
            · -- No overlong form.
              dsimp only
              split
              · change 144 ≤ v / 4096 % 64 + 128
                omega
              · exact Nat.le_add_left _ _
            · -- No number beyond the last code point.
              dsimp only
              split
              · change v / 4096 % 64 + 128 ≤ 143
                omega
              · change v / 4096 % 64 + 128 ≤ 191
                omega
            · exact ⟨Partial.goesOn_next _ _ (by omega), Partial.goesOn_next _ _ (by omega),
                trivial⟩
          · rw [List.foldl_cons, List.foldl_cons, List.foldl_cons, List.foldl_nil,
              Partial.next_ofNat _ (by omega), Partial.next_ofNat _ (by omega),
              Partial.next_ofNat _ (by omega)]
            exact hchar _ (by simp only; omega)

/-- Read as a character, the bytes leave nothing but the character. -/
theorem Reads.scan {c : Char} {bytes : List UInt8} (h : Reads c bytes) :
    Utf8.scan none bytes = ⟨[c], false, none⟩ := by
  cases bytes with
  | nil => exact h.elim
  | cons b more =>
      rw [scan_cons]
      rcases h with ⟨hlead, rfl⟩ | ⟨p, hlead, -, hdue, hmore, hfollows, hbits⟩
      · simp [Scan.step, Scan.resume, Scan.first, hlead, Scan.append]
      · simp [Scan.step, Scan.resume, Scan.first, hlead, Scan.append,
          scan_some_of_completes hfollows hdue.symm hmore, hbits]

/-- Bytes that are not the whole character yet are held back. -/
theorem Reads.scan_prefix {c : Char} {bytes back : List UInt8} (h : Reads c bytes)
    (hback : back <+: bytes) (hne : back ≠ bytes) :
    ∃ tail, Utf8.scan none back = ⟨[], false, tail⟩ ∧ held tail = back.length := by
  obtain ⟨rest, rfl⟩ := hback
  have hrest : rest ≠ [] := by simpa using hne
  cases back with
  | nil => exact ⟨none, rfl, rfl⟩
  | cons b more =>
      change Reads c (b :: (more ++ rest)) at h
      rcases h with ⟨-, hnil⟩ | ⟨p, hlead, hread, hdue, -, hfollows, -⟩
      · exact absurd (List.append_eq_nil_iff.mp hnil).2 hrest
      · have hshort : more.length < p.due := by
          have hpos := List.length_pos_iff.mpr hrest
          rw [hdue, List.length_append]
          omega
        refine ⟨some (more.foldl Partial.next p), ?_, ?_⟩
        · rw [scan_cons]
          simp [Scan.step, Scan.resume, Scan.first, hlead, Scan.append,
            scan_some_of_follows hfollows.of_append hshort]
        · change (more.foldl Partial.next p).read = _
          rw [Partial.read_foldl_next, hread, List.length_cons, Nat.add_comm]

theorem encode_cons (c : Char) (cs : List Char) :
    encode (c :: cs) = String.utf8EncodeChar c ++ encode cs := rfl

/-- A start of the bytes of a text is the bytes of a start of the text, which is decoded, and
at most three bytes of one more character, which are held back. -/
theorem scan_of_prefix {cs : List Char} {bytes : List UInt8} (h : bytes <+: encode cs) :
    ∃ back, bytes = encode (scan none bytes).text ++ back ∧ (scan none bytes).text <+: cs ∧
      (scan none bytes).flawed = false ∧ held (scan none bytes).tail = back.length ∧
      back.length ≤ 3 := by
  induction cs generalizing bytes with
  | nil =>
      obtain rfl := List.prefix_nil.mp h
      exact ⟨[], rfl, List.nil_prefix, rfl, rfl, Nat.zero_le _⟩
  | cons c cs ih =>
      have hc := reads_utf8EncodeChar c
      rw [encode_cons] at h
      by_cases hwhole : String.utf8EncodeChar c <+: bytes
      · obtain ⟨more, rfl⟩ := hwhole
        obtain ⟨back, hbytes, hstart, hflawed, hheld, hback⟩ :=
          ih ((List.prefix_append_right_inj _).mp h)
        rw [scan_append, hc.scan]
        refine ⟨back, ?_, ?_, hflawed, hheld, hback⟩
        · rw [Scan.text_append]
          change _ = String.utf8EncodeChar c ++ encode (scan none more).text ++ back
          rw [List.append_assoc, ← hbytes]
        · rw [Scan.text_append]
          exact (List.prefix_cons_inj c).mpr hstart
      · have hpart : bytes <+: String.utf8EncodeChar c :=
          (List.prefix_or_prefix_of_prefix h (List.prefix_append _ _)).resolve_right hwhole
        have hne : bytes ≠ String.utf8EncodeChar c := by
          rintro rfl
          exact hwhole List.prefix_rfl
        obtain ⟨tail, hscan, hheld⟩ := hc.scan_prefix hpart hne
        rw [hscan]
        refine ⟨bytes, rfl, List.nil_prefix, rfl, hheld, ?_⟩
        have hlt : bytes.length < (String.utf8EncodeChar c).length :=
          lt_of_le_of_ne hpart.length_le fun heq => hne (hpart.eq_of_length heq)
        rw [String.length_utf8EncodeChar] at hlt
        have hsize := Char.utf8Size_le_four c
        omega

/-- The bytes of a text are decoded to the text. -/
theorem scan_encode (cs : List Char) : scan none (encode cs) = ⟨cs.reverse, false, none⟩ := by
  induction cs with
  | nil => rfl
  | cons c cs ih =>
      rw [encode_cons, scan_append, (reads_utf8EncodeChar c).scan, ih]
      simp [Scan.append]

end Utf8
end Notebook
