import Notebook.Proofs.Json.Printing
import Notebook.Proofs.Json.Rereading
import Notebook.Proofs.Service.Reading

/-!
# Reading what was written

A service writes its output in parts: blank lines, objects on lines of their own, and values
under headers.  Each part takes the reader from the start of a line to the start of a line, so
whatever the parts are, the values are read as they were written.

* `Part`: a part of an output, with its text and its values; `Part.Proper` says what a reader
  expects of it.
* `foldl_line`, `foldl_body`: a whole line and a whole body, byte by byte.
* `Part.Proper.read`: what a reader makes of a part.
* `readAll_written`: the values of an output are those that were written.
-/

set_option autoImplicit false

namespace Notebook
namespace Framing

/-! ## Outputs -/

/-- A header line without its end. -/
structure Header where
  name : List Char
  value : List Char
  deriving DecidableEq, Repr

/-- A part of the output of a service. -/
inductive Part where
  | blank (line : List Char)
  /-- An object on a line of its own. -/
  | object (value : Json)
  /-- A value under headers; the separator is a blank line. -/
  | framed (first : Header) (headers : List Header) (separator : List Char) (value : Json)

/-- The text of a line, which the reader takes as a whole. -/
structure IsLine (cs : List Char) : Prop where
  unbroken : '\n' ∉ cs
  fits : (cs ++ ['\n']).utf8Encode.size ≤ sizeLimit

namespace Header

def line (h : Header) : List Char :=
  h.name ++ ':' :: h.value

/-- Whether it is the header that gives the size of the body, in whatever case it is written. -/
def givesSize (h : Header) : Bool :=
  (Text.trimmed h.name).map Char.toLower = "content-length".toList

/-- The size of the body, if the header gives it. -/
def size? (h : Header) : Option Nat :=
  if h.givesSize then Framing.size? (Text.trimmed h.value) else none

/-- A header as a reader expects it.  Its name ends at the first colon. -/
structure Proper (h : Header) : Prop where
  name : ':' ∉ h.name
  line : IsLine h.line
  size : h.givesSize = true → h.size?.isSome = true

end Header

namespace Part

/-- The text of a part. -/
def chars : Part → List Char
  | .blank line => line ++ ['\n']
  | .object value => value.chars ++ ['\n']
  | .framed first headers separator value =>
    (first :: headers).flatMap (fun h => h.line ++ ['\n']) ++ (separator ++ ['\n']) ++
      value.chars

/-- The values of a part. -/
def values : Part → List Json
  | .blank _ => []
  | .object value => [value]
  | .framed _ _ _ value => [value]

/-- A part as a reader expects it.  Of several sizes in the headers the last is that of the
body. -/
inductive Proper : Part → Prop where
  | blank (line : List Char) (hline : IsLine line) (hblank : ∀ c ∈ line, Text.isBlank c = true) :
    Proper (.blank line)
  | object (fields : List (String × Json))
    (hfits : ((Json.object fields).chars ++ ['\n']).utf8Encode.size ≤ sizeLimit)
    (hparse : Json.parse? (Json.object fields).text = some (.object fields)) :
    Proper (.object (.object fields))
  | framed (first : Header) (headers : List Header) (separator : List Char) (value : Json)
    (hfirst : (Text.trimmed first.line).head? ≠ some '\x7b')
    (hheaders : ∀ h ∈ first :: headers, h.Proper)
    (hseparator : IsLine separator) (hblank : ∀ c ∈ separator, Text.isBlank c = true)
    (hsize : ((first :: headers).filterMap Header.size?).getLast? =
      some value.chars.utf8Encode.size)
    (hfits : value.chars.utf8Encode.size ≤ sizeLimit)
    (hparse : Json.parse? value.text = some value) :
    Proper (.framed first headers separator value)

end Part

/-! ## Lines and bodies, byte by byte -/

theorem push_append (read : ByteArray) (b : UInt8) (rest : List UInt8) :
    read.push b ++ rest.toByteArray = read ++ (b :: rest).toByteArray :=
  ByteArray.ext (by simp)

/-- A whole line, in a phase that collects the bytes of a line. -/
theorem foldl_line {phase : ByteArray → Phase} {whole : ByteArray → Step}
    (hfeed : ∀ read b, read.size < sizeLimit → feed (phase read) b =
      if isLineEnd b then whole (read.push b) else ⟨phase (read.push b), none⟩)
    (newest : List Json) (bytes : List UInt8) (read : ByteArray) (hbytes : 0x0A ∉ bytes)
    (hsize : read.size + bytes.length < sizeLimit) :
    (bytes ++ [0x0A]).foldl Reader.step ⟨newest, phase read⟩ =
      (whole (read ++ (bytes ++ [0x0A]).toByteArray)).after newest := by
  -- What has been read grows by what is left to read, so the bound is on both together.
  induction bytes generalizing read with
  | nil =>
      rw [List.nil_append, List.foldl_cons, List.foldl_nil, Reader.step_eq,
        hfeed read 0x0A (by simpa using hsize), if_pos (by decide), ← push_append,
        List.toByteArray_nil, ByteArray.append_empty]
  | cons b rest ih =>
      rw [List.length_cons] at hsize
      obtain ⟨hb, hrest⟩ := not_or.mp (List.mem_cons.not.mp hbytes)
      rw [List.cons_append, List.foldl_cons, Reader.step_eq, hfeed read b (by omega),
        if_neg (by simpa [isLineEnd] using Ne.symm hb), ← push_append]
      exact ih (read.push b) hrest (by rw [ByteArray.size_push]; omega)

/-- A whole body. -/
theorem foldl_body (newest : List Json) (bytes : List UInt8) (read : ByteArray)
    (hbytes : bytes ≠ []) :
    bytes.foldl Reader.step ⟨newest, .body bytes.length read⟩ =
      (bodyStep (read ++ bytes.toByteArray)).after newest := by
  -- As many bytes are due as are left, and the last one ends the body.
  induction bytes generalizing read with
  | nil => exact absurd rfl hbytes
  | cons b rest ih =>
      rw [List.foldl_cons, Reader.step_eq, ← push_append]
      cases rest with
      | nil =>
          rw [List.toByteArray_nil, ByteArray.append_empty]
          rfl
      | cons next rest => exact ih (read.push b) (by simp)

/-! ## Lines and bodies as texts -/

theorem toByteArray_toList (bytes : ByteArray) : bytes.data.toList.toByteArray = bytes :=
  ByteArray.ext (by simp)

theorem utf8Encode_line (cs : List Char) :
    (cs ++ ['\n']).utf8Encode.data.toList = cs.utf8Encode.data.toList ++ [0x0A] := by
  rw [List.utf8Encode_append, ByteArray.data_append, Array.toList_append]
  rfl

variable (newest : List Json)

theorem take_whole {phase : ByteArray → Phase} {whole : ByteArray → Step}
    (hfeed : ∀ read b, read.size < sizeLimit → feed (phase read) b =
      if isLineEnd b then whole (read.push b) else ⟨phase (read.push b), none⟩)
    {cs : List Char} (h : IsLine cs) :
    Reader.take ⟨newest, phase .empty⟩ (cs ++ ['\n']).utf8Encode =
      (whole (cs ++ ['\n']).utf8Encode).after newest := by
  have hbytes : 0x0A ∉ cs.utf8Encode.data.toList := fun hmem =>
    h.unbroken (Text.lineEnd_mem_utf8Encode hmem)
  have hsize : ByteArray.empty.size + cs.utf8Encode.data.toList.length < sizeLimit := by
    have hfits := h.fits
    rw [← ByteArray.size_data, ← Array.length_toList, utf8Encode_line, List.length_append,
      List.length_singleton] at hfits
    rw [ByteArray.size_empty]
    omega
  rw [Reader.take_eq, utf8Encode_line, foldl_line hfeed newest _ .empty hbytes hsize,
    ← utf8Encode_line, toByteArray_toList, ByteArray.empty_append]

/-- A whole line that may start a frame. -/
theorem take_line {cs : List Char} (h : IsLine cs) :
    Reader.take ⟨newest, .line .empty⟩ (cs ++ ['\n']).utf8Encode =
      (takeLine (cs ++ ['\n']).utf8Encode).after newest := by
  refine take_whole newest (fun read b hread => ?_) h
  simp only [feed]
  rw [if_neg (Nat.not_le_of_lt hread)]

/-- A whole line after the first header. -/
theorem take_header (size : Option Nat) {cs : List Char} (h : IsLine cs) :
    Reader.take ⟨newest, .header size .empty⟩ (cs ++ ['\n']).utf8Encode =
      (takeHeader size (cs ++ ['\n']).utf8Encode).after newest := by
  refine take_whole newest (fun read b hread => ?_) h
  simp only [feed]
  rw [if_neg (Nat.not_le_of_lt hread)]

/-- No value has the empty text. -/
theorem size_of_parse {value : Json} (hparse : Json.parse? value.text = some value) :
    value.chars.utf8Encode.size ≠ 0 := by
  intro hsize
  unfold Json.text at hparse
  rw [List.utf8Encode_eq_empty.mp (ByteArray.size_eq_zero_iff.mp hsize)] at hparse
  cases hparse

/-- A whole body. -/
theorem take_body {value : Json} (hparse : Json.parse? value.text = some value) :
    Reader.take ⟨newest, .body value.chars.utf8Encode.size .empty⟩ value.chars.utf8Encode =
      ⟨value :: newest, .line .empty⟩ := by
  have hlength : value.chars.utf8Encode.size = value.chars.utf8Encode.data.toList.length := by
    rw [← ByteArray.size_data, ← Array.length_toList]
  have hsome : value.chars.utf8Encode.data.toList ≠ [] := by
    rw [← List.length_pos_iff, ← hlength]
    exact Nat.pos_of_ne_zero (size_of_parse hparse)
  have hbody : bodyStep value.chars.utf8Encode = ⟨.line .empty, some value⟩ := by
    have htext : Json.parse? (String.ofList value.chars) = some value := hparse
    unfold bodyStep
    rw [Text.fromUTF8?_utf8Encode, Option.bind_some, htext]
  rw [Reader.take_eq, hlength, foldl_body newest _ .empty hsome, toByteArray_toList,
    ByteArray.empty_append, hbody]
  rfl

/-! ## What whole lines lead to -/

theorem trimmed_line (cs : List Char) : Text.trimmed (cs ++ ['\n']) = Text.trimmed cs :=
  Text.trimmed_append_blanks cs (List.forall_mem_singleton.mpr rfl)

theorem takeLine_blank {cs : List Char} (h : ∀ c ∈ cs, Text.isBlank c = true) :
    takeLine (cs ++ ['\n']).utf8Encode = ⟨.line .empty, none⟩ := by
  unfold takeLine
  rw [Text.fromUTF8?_utf8Encode]
  simp only
  rw [String.toList_ofList, trimmed_line, Text.trimmed_eq_nil_iff.mpr h]

theorem takeHeader_blank (size : Option Nat) {cs : List Char}
    (h : ∀ c ∈ cs, Text.isBlank c = true) :
    takeHeader size (cs ++ ['\n']).utf8Encode = startBody size := by
  unfold takeHeader
  rw [Text.fromUTF8?_utf8Encode]
  simp only
  rw [String.toList_ofList, trimmed_line, Text.trimmed_eq_nil_iff.mpr h]

/-! ## Headers -/

theorem splitAtColon_append {key : List Char} (h : ':' ∉ key) (value : List Char) :
    splitAtColon (key ++ ':' :: value) = some (key, value) := by
  induction key with
  | nil => rfl
  | cons c rest ih =>
      obtain ⟨hc, hrest⟩ := not_or.mp (List.mem_cons.not.mp h)
      rw [List.cons_append, splitAtColon, if_neg (Ne.symm hc), ih hrest]
      rfl

namespace Header

variable {h : Header}

theorem trimmed_line (h : Header) :
    Text.trimmed h.line = Text.dropBlanks h.name ++ ':' :: Text.dropEnd h.value :=
  Text.trimmed_append_cons (by decide) h.name h.value

/-- A proper header line is understood. -/
theorem Proper.sizeOf (hproper : h.Proper) :
    Framing.sizeOf (Text.trimmed h.line) = .ok h.size? := by
  have hkey : ':' ∉ Text.dropBlanks h.name := fun hmem =>
    hproper.name (List.dropWhile_subset Text.isBlank hmem)
  unfold Framing.sizeOf
  rw [trimmed_line, splitAtColon_append hkey]
  simp only [Text.trimmed_dropBlanks, Text.trimmed_dropEnd]
  by_cases hgives : h.givesSize = true
  · have hsize? : h.size? = Framing.size? (Text.trimmed h.value) := if_pos hgives
    obtain ⟨n, hn⟩ := Option.isSome_iff_exists.mp (hproper.size hgives)
    rw [if_pos (of_decide_eq_true hgives), ← hsize?, hn]
  · have hsize? : h.size? = none := if_neg hgives
    rw [if_neg fun heq => hgives (decide_eq_true heq), hsize?]

theorem Proper.takeLine (hproper : h.Proper)
    (hfirst : (Text.trimmed h.line).head? ≠ some '\x7b') :
    Framing.takeLine (h.line ++ ['\n']).utf8Encode = ⟨.header h.size? .empty, none⟩ := by
  have hsizeOf := hproper.sizeOf
  unfold Framing.takeLine
  rw [Text.fromUTF8?_utf8Encode]
  simp only
  rw [String.toList_ofList, Framing.trimmed_line]
  split
  · next hblank =>
      rw [hblank] at hsizeOf
      cases hsizeOf
  · next rest hbrace =>
      rw [hbrace] at hfirst
      exact absurd rfl hfirst
  · rw [hsizeOf]

/-- The size in a later header counts instead of those before it. -/
theorem Proper.takeHeader (hproper : h.Proper) (size : Option Nat) :
    Framing.takeHeader size (h.line ++ ['\n']).utf8Encode =
      ⟨.header (h.size?.or size) .empty, none⟩ := by
  have hsizeOf := hproper.sizeOf
  unfold Framing.takeHeader
  rw [Text.fromUTF8?_utf8Encode]
  simp only
  rw [String.toList_ofList, Framing.trimmed_line]
  split
  · next hblank =>
      rw [hblank] at hsizeOf
      cases hsizeOf
  · rw [hsizeOf]
    cases h.size? <;> rfl

end Header

theorem getLast?_sizes (x : Header) (rest : List Header) :
    ((x :: rest).filterMap Header.size?).getLast? =
      (rest.filterMap Header.size?).getLast?.or x.size? := by
  cases hsize : x.size? with
  | none => rw [List.filterMap_cons_none hsize, Option.or_none]
  | some n =>
      rw [List.filterMap_cons_some hsize, List.getLast?_cons]
      cases (rest.filterMap Header.size?).getLast? <;> rfl

/-- Several headers after the first one: the last size counts. -/
theorem take_headers {headers : List Header} (h : ∀ x ∈ headers, x.Proper) (size : Option Nat) :
    Reader.take ⟨newest, .header size .empty⟩
        (headers.flatMap fun x => x.line ++ ['\n']).utf8Encode =
      ⟨newest, .header ((headers.filterMap Header.size?).getLast?.or size) .empty⟩ := by
  induction headers generalizing size with
  | nil => rfl
  | cons x rest ih =>
      obtain ⟨hx, hrest⟩ := List.forall_mem_cons.mp h
      rw [List.flatMap_cons, List.utf8Encode_append, Reader.take_append,
        take_header newest size hx.line, hx.takeHeader, getLast?_sizes, Option.or_assoc]
      exact ih hrest _

/-! ## Parts -/

/-- The text of an object has no blanks at its ends. -/
theorem trimmed_object (fields : List (String × Json)) :
    Text.trimmed (Json.object fields).chars = (Json.object fields).chars := by
  have hbegin := Text.trimmed_append_cons (c := '\x7b') (by decide) []
    (Json.fieldChars fields ++ ['\x7d'])
  rw [Text.dropEnd_append_cons (by decide)] at hbegin
  exact hbegin

theorem takeLine_fields {fields : List (String × Json)}
    (hparse : Json.parse? (Json.object fields).text = some (.object fields)) :
    takeLine ((Json.object fields).chars ++ ['\n']).utf8Encode =
      ⟨.line .empty, some (.object fields)⟩ := by
  have htrimmed : Text.trimmed (String.ofList ((Json.object fields).chars ++ ['\n'])).toList =
      '\x7b' :: (Json.fieldChars fields ++ ['\x7d']) := by
    rw [String.toList_ofList, trimmed_line, trimmed_object]
    rfl
  have htext : Json.parse? (String.ofList ('\x7b' :: (Json.fieldChars fields ++ ['\x7d']))) =
      some (.object fields) := hparse
  rw [takeLine_object (Text.fromUTF8?_utf8Encode _) htrimmed, htext]

/-- A proper part is read as a whole, and the reader is then at the start of a line. -/
theorem Part.Proper.read {part : Part} (h : part.Proper) :
    Reader.take ⟨newest, .line .empty⟩ part.chars.utf8Encode =
      ⟨part.values.reverse ++ newest, .line .empty⟩ := by
  cases h with
  | blank line hline hblank =>
      rw [chars, take_line newest hline, takeLine_blank hblank]
      rfl
  | object fields hfits hparse =>
      have hline : IsLine (Json.object fields).chars := ⟨(Json.plain_chars _).lineEnd, hfits⟩
      rw [chars, take_line newest hline, takeLine_fields hparse]
      rfl
  | framed first headers separator value hfirst hheaders hseparator hblank hsize hfits hparse =>
      obtain ⟨hproper, hheaders⟩ := List.forall_mem_cons.mp hheaders
      have hbody : startBody (some value.chars.utf8Encode.size) =
          ⟨.body value.chars.utf8Encode.size .empty, none⟩ := by
        simp only [startBody]
        rw [if_neg (Nat.not_lt_of_le hfits), if_neg (size_of_parse hparse)]
      -- The size is that of the last header that gives one, be it the first header or another.
      have hlines : Reader.take ⟨newest, .line .empty⟩
          ((first :: headers).flatMap fun x => x.line ++ ['\n']).utf8Encode =
          ⟨newest, .header (some value.chars.utf8Encode.size) .empty⟩ := by
        rw [List.flatMap_cons, List.utf8Encode_append, Reader.take_append,
          take_line newest hproper.line, hproper.takeLine hfirst, ← hsize, getLast?_sizes]
        exact take_headers newest hheaders _
      rw [chars, List.utf8Encode_append, List.utf8Encode_append, Reader.take_append,
        Reader.take_append, hlines, take_header newest _ hseparator,
        takeHeader_blank _ hblank, hbody]
      exact take_body newest hparse

/-- Proper parts are read one after the other. -/
theorem take_parts {parts : List Part} (h : ∀ part ∈ parts, part.Proper) (newest : List Json) :
    Reader.take ⟨newest, .line .empty⟩ (parts.flatMap Part.chars).utf8Encode =
      ⟨(parts.flatMap Part.values).reverse ++ newest, .line .empty⟩ := by
  induction parts generalizing newest with
  | nil => rfl
  | cons part rest ih =>
      obtain ⟨hpart, hrest⟩ := List.forall_mem_cons.mp h
      rw [List.flatMap_cons, List.utf8Encode_append, Reader.take_append, hpart.read, ih hrest,
        List.flatMap_cons, List.reverse_append, List.append_assoc]

theorem readAll_parts {parts : List Part} (h : ∀ part ∈ parts, part.Proper) :
    readAll (String.ofList (parts.flatMap Part.chars)).toUTF8 =
      (parts.flatMap Part.values, .clean) := by
  have hend : finish (.line .empty) = (none, .clean) := rfl
  unfold readAll Reader.start
  rw [Text.toUTF8_ofList, take_parts h, List.append_nil]
  simp only [Reader.close, hend, Option.toList_none, List.nil_append, List.reverse_reverse]

/-- Reading an output gives the values that were written, in their order, and then its end,
whether they were written as objects on lines or under headers, and with blank lines anywhere
between them.  In particular, objects that were written line by line are read back. -/
theorem readAll_written :
    (∀ parts : List Part, (∀ part ∈ parts, part.Proper) →
      readAll (String.ofList (parts.flatMap Part.chars)).toUTF8 =
        (parts.flatMap Part.values, .clean)) ∧
    ∀ values : List Json, (∀ v ∈ values, (Part.object v).Proper) →
      readAll (String.join (values.map line)).toUTF8 = (values, .clean) := by
  refine ⟨fun parts h => readAll_parts h, fun values h => ?_⟩
  -- What is written line by line is an output whose parts are all objects.
  have hparts : ∀ part ∈ values.map Part.object, part.Proper := by
    intro part hpart
    obtain ⟨v, hv, rfl⟩ := List.mem_map.mp hpart
    exact h v hv
  have htext : String.join (values.map line) =
      String.ofList ((values.map Part.object).flatMap Part.chars) := by
    rw [← String.toList_inj, String.toList_join, String.toList_ofList, List.flatMap_map,
      List.flatMap_map]
    refine List.flatMap_congr fun v _ => ?_
    simp [line, Json.text, Part.chars]
  rw [htext, readAll_parts hparts, List.flatMap_map]
  exact congrArg (·, Ending.clean) (List.flatMap_singleton' values)

/-- A blank line, an object on a line, and a string under two headers.  It has characters of
two bytes, and its size is given in mixed case. -/
theorem readAll_written_mixed :
    let object : Json := .object [("a", .nat 1)]
    let body : Json := .string "\x7b\u00E9\u00E9\x7d\n"
    let kind : Header := ⟨"Content-Type".toList, " json\r".toList⟩
    let length : Header := ⟨"content-LENGTH".toList, " +10\r".toList⟩
    let parts : List Part := [.blank ['\t', '\r'], .object object, .framed kind [length] ['\r'] body]
    (∀ part ∈ parts, part.Proper) ∧
      readAll (String.ofList (parts.flatMap Part.chars)).toUTF8 = ([object, body], .clean) ∧
      readAll (String.join ([object, object].map line)).toUTF8 = ([object, object], .clean) := by
  intro object body kind length parts
  have hone : Json.Formed Json.Number.Fits Json.nestingLimit object :=
    .object (List.pairwise_singleton _ _)
      (List.forall_mem_singleton.mpr (.number ⟨by decide, by decide⟩))
  have hobject : (Part.object object).Proper :=
    .object _ (by decide +kernel) (Json.parse?_text hone)
  have hparts : ∀ part ∈ parts, part.Proper := by
    intro part hpart
    simp only [parts, List.mem_cons, List.not_mem_nil, or_false] at hpart
    obtain rfl | rfl | rfl := hpart
    · exact .blank _ ⟨by decide, by decide +kernel⟩
        (List.forall_mem_cons.mpr ⟨rfl, List.forall_mem_singleton.mpr rfl⟩)
    · exact hobject
    · refine .framed _ _ _ _ (by decide) ?_ ⟨by decide, by decide +kernel⟩
        (List.forall_mem_singleton.mpr rfl) (by decide +kernel) (by decide +kernel)
        (Json.parse?_text (.string _))
      intro h hh
      simp only [List.mem_cons, List.not_mem_nil, or_false] at hh
      obtain rfl | rfl := hh
      · exact ⟨by decide, ⟨by decide, by decide +kernel⟩, by decide⟩
      · exact ⟨by decide, ⟨by decide, by decide +kernel⟩, by decide⟩
  refine ⟨hparts, readAll_written.1 parts hparts, readAll_written.2 [object, object] ?_⟩
  intro v hv
  simp only [List.mem_cons, List.not_mem_nil, or_false, or_self] at hv
  exact hv ▸ hobject

end Framing
end Notebook
