import FrameScript.Proofs.Equality
import FrameScript.Proofs.JsonText
import FrameScript.Proofs.Signatures

set_option autoImplicit false

/-!
# The JSON convertors

`stringToJson` and `jsonToString` are inverse to each other on the documents of integers that a
program can have read. Such a document is within the limits of the reader, and its objects have their
members in order whatever the order and the repetitions in the text; so the text that is printed of
it is another text of the same document.

## Main definitions

* `Document.GivesFitting` — a raw document that is a fitting free-form one, if it is one of integers.
* `NativeUnit.Gives` — a unit that gives a value wherever there is room for a call.
* `Library.reader`, `Library.printer` — the two units.

## Main results

* `JsonText.readersGiveFitting` — the readers give only what fits.
* `Json.exists_parse?_iff` — the documents of integers that can be read are those that fit.
* `Library.convertors_inverse` — what was read is printed, and read back from what was printed.
-/

namespace FrameScript

/-! ## What reading gives -/

namespace Document

/-- If the document is a free-form one without doubles, this fits into that much room. -/
def GivesFitting (room : Nat) (d : Document) : Prop :=
  ∀ doc, d.toJson? = some doc → doc.isIntegral = true → doc.Fits room

theorem exists_of_itemsToJson? {items : List Document} {docs : List Json}
    (h : itemsToJson? items = some docs) : ∀ doc ∈ docs, ∃ d ∈ items, d.toJson? = some doc := by
  induction items generalizing docs with
  | nil =>
    cases h
    simp
  | cons item items ih =>
    rw [itemsToJson?] at h
    split at h
    next doc docs' hdoc hdocs =>
      cases h
      refine List.forall_mem_cons.mpr ⟨⟨item, List.mem_cons_self, hdoc⟩, fun doc hmem => ?_⟩
      obtain ⟨d, hd, hread⟩ := ih hdocs doc hmem
      exact ⟨d, List.mem_cons_of_mem _ hd, hread⟩
    · cases h

theorem exists_of_entriesToJson? {entries : List (Document × Document)}
    {members : List (String × Json)} (h : entriesToJson? entries = some members) :
    ∀ member ∈ members, ∃ e ∈ entries, e.2.toJson? = some member.2 := by
  induction entries generalizing members with
  | nil =>
    cases h
    simp
  | cons entry entries ih =>
    rw [entriesToJson?] at h
    split at h
    next name doc members' _ hdoc hmembers =>
      cases h
      refine List.forall_mem_cons.mpr ⟨⟨entry, List.mem_cons_self, hdoc⟩, fun member hmem => ?_⟩
      obtain ⟨e, he, hread⟩ := ih hmembers member hmem
      exact ⟨e, List.mem_cons_of_mem _ he, hread⟩
    · cases h

namespace GivesFitting

variable {room : Nat}

theorem unreadable : GivesFitting room unreadable := nofun

theorem null : GivesFitting room (ofScalar .null) := by
  rintro _ ⟨⟩ -
  exact .null

theorem bool (b : Bool) : GivesFitting room (ofScalar (.bool b)) := by
  rintro _ ⟨⟩ -
  exact .bool b

theorem ofString (s? : Option String) : GivesFitting room (JsonText.ofString s?) := by
  cases s? with
  | none => exact unreadable
  | some s =>
    rintro _ ⟨⟩ -
    exact .str s

theorem ofNumber (t : NumberText) : GivesFitting room (JsonText.ofNumber t) := by
  intro doc hdoc hintegral
  obtain ⟨v, hv, rfl⟩ := Option.map_eq_some_iff.mp hdoc
  cases v with
  | null => exact .null
  | bool b => exact .bool b
  | str s => exact .str s
  | int n => exact .int (NumberText.int_of_scalar? hv)
  | float x =>
    rw [scalarToJson, Json.ofFloat] at hintegral ⊢
    split at hintegral
    · cases hintegral
    · exact .null

theorem list {items : List Document} (h : ∀ d ∈ items, GivesFitting room d) :
    GivesFitting (room + 1) (.list items) := by
  intro doc hdoc hintegral
  obtain ⟨docs, hdocs, rfl⟩ := Option.map_eq_some_iff.mp hdoc
  refine .arr fun doc hmem => ?_
  obtain ⟨d, hd, hread⟩ := exists_of_itemsToJson? hdocs doc hmem
  exact h d hd doc hread (Json.isIntegralItems_iff.mp hintegral doc hmem)

theorem table {entries : List (Document × Document)} (h : ∀ e ∈ entries, GivesFitting room e.2) :
    GivesFitting (room + 1) (.table entries) := by
  intro doc hdoc hintegral
  obtain ⟨members, hmembers, rfl⟩ := Option.map_eq_some_iff.mp hdoc
  refine .obj (Dict.pairwise_ofList members) fun member hmem => ?_
  obtain ⟨e, he, hread⟩ := exists_of_entriesToJson? hmembers member (Dict.mem_of_mem_ofList hmem)
  exact h e he member.2 hread (Json.isIntegralMembers_iff.mp hintegral member hmem)

/-- A container whose parts fit into the room that is left inside it. -/
theorem inRoom {d : Document} (h : ∀ inside, room = inside + 1 → GivesFitting room d) :
    GivesFitting room (JsonText.inRoom room d) := by
  cases room with
  | zero => exact unreadable
  | succ inside => exact h inside rfl

end GivesFitting

end Document

namespace JsonText

open Document

/-- The readers with that much fuel give only what fits. -/
structure ReadersGiveFitting (fuel : Nat) : Prop where
  value {room : Nat} {cs rest : List Char} {d : Document}
    (h : readValue fuel room cs = some (d, rest)) : d.GivesFitting room
  items {room : Nat} {cs rest : List Char} {read items : List Document}
    (h : readItems fuel room read cs = some (items, rest))
    (hread : ∀ d ∈ read, d.GivesFitting room) : ∀ d ∈ items, d.GivesFitting room
  entries {room : Nat} {cs rest : List Char} {read entries : List (Document × Document)}
    (h : readEntries fuel room read cs = some (entries, rest))
    (hread : ∀ e ∈ read, e.2.GivesFitting room) : ∀ e ∈ entries, e.2.GivesFitting room

theorem readValue_givesFitting {fuel room : Nat} {cs rest : List Char} {d : Document}
    (ih : ReadersGiveFitting fuel) (h : readValue (fuel + 1) room cs = some (d, rest)) :
    d.GivesFitting room := by
  rw [readValue] at h
  split at h
  · cases h
  · obtain ⟨⟨s, rest'⟩, -, heq⟩ := Option.map_eq_some_iff.mp h
    cases heq
    exact .ofString s
  · split at h
    · cases h
      exact .inRoom fun inside hroom => by subst hroom; exact .list (by simp)
    · obtain ⟨⟨items, rest'⟩, hitems, heq⟩ := Option.map_eq_some_iff.mp h
      cases heq
      exact .inRoom fun inside hroom => by subst hroom; exact .list (ih.items hitems (by simp))
  · split at h
    · cases h
      exact .inRoom fun inside hroom => by subst hroom; exact .table (by simp)
    · obtain ⟨⟨entries, rest'⟩, hentries, heq⟩ := Option.map_eq_some_iff.mp h
      cases heq
      exact .inRoom fun inside hroom => by subst hroom; exact .table (ih.entries hentries (by simp))
  · cases h
    exact .null
  · cases h
    exact .bool true
  · cases h
    exact .bool false
  · obtain ⟨⟨t, rest'⟩, -, heq⟩ := Option.map_eq_some_iff.mp h
    cases heq
    exact .ofNumber t

theorem readItems_givesFitting {fuel room : Nat} {cs rest : List Char}
    {read items : List Document} (ih : ReadersGiveFitting fuel)
    (h : readItems (fuel + 1) room read cs = some (items, rest))
    (hread : ∀ d ∈ read, d.GivesFitting room) : ∀ d ∈ items, d.GivesFitting room := by
  rw [readItems] at h
  split at h
  · cases h
  next item cs' hitem =>
    have hmore : ∀ d ∈ item :: read, d.GivesFitting room :=
      List.forall_mem_cons.mpr ⟨ih.value hitem, hread⟩
    split at h
    · exact ih.items h hmore
    · cases h
      simpa using fun d hd => hmore d (by simpa [or_comm] using hd)
    · cases h

theorem readEntries_givesFitting {fuel room : Nat} {cs rest : List Char}
    {read entries : List (Document × Document)} (ih : ReadersGiveFitting fuel)
    (h : readEntries (fuel + 1) room read cs = some (entries, rest))
    (hread : ∀ e ∈ read, e.2.GivesFitting room) : ∀ e ∈ entries, e.2.GivesFitting room := by
  rw [readEntries] at h
  split at h
  · split at h
    · cases h
    next key cs₁ hkey =>
      split at h
      next cs₂ hcolon =>
        split at h
        · cases h
        next value cs₃ hvalue =>
          have hmore : ∀ e ∈ (ofString key, value) :: read, e.2.GivesFitting room :=
            List.forall_mem_cons.mpr ⟨ih.value hvalue, hread⟩
          split at h
          · exact ih.entries h hmore
          · cases h
            exact fun e he => hmore e (List.mem_reverse.mp he)
          · cases h
      · cases h
  · cases h

/-- **What is read fits.** The reader of a container is one level deeper than those of its parts, and
without room for it there is nothing to read. -/
theorem readersGiveFitting (fuel : Nat) : ReadersGiveFitting fuel := by
  induction fuel with
  | zero => exact ⟨nofun, nofun, nofun⟩
  | succ fuel ih =>
    exact ⟨readValue_givesFitting ih, readItems_givesFitting ih, readEntries_givesFitting ih⟩

end JsonText

namespace Json

/-- A document of integers that was read is within the limits of the reader. -/
theorem fits_of_parse? {s : String} {doc : Json} (h : parse? s = some doc)
    (hintegral : doc.isIntegral = true) : doc.Fits maxNesting := by
  obtain ⟨d, hd, hdoc⟩ := Option.bind_eq_some_iff.mp h
  rw [Document.ofJsonText?, JsonText.read?] at hd
  split at hd
  next d' rest hread =>
    split at hd
    · cases hd
      exact (JsonText.readersGiveFitting _).value hread doc hdoc hintegral
    · cases hd
  · cases hd

theorem isIntegral_of_fits {room : Nat} {doc : Json} (h : doc.Fits room) :
    doc.isIntegral = true := by
  induction h with
  | null | bool | int | str => rfl
  | arr _ ih => exact isIntegralItems_iff.mpr ih
  | obj _ _ ih => exact isIntegralMembers_iff.mpr ih

/-- **What can be read.** The documents of integers that some text stands for are those that fit
into the room of the reader. -/
theorem exists_parse?_iff {doc : Json} :
    (∃ s, parse? s = some doc) ∧ doc.isIntegral = true ↔ doc.Fits maxNesting :=
  ⟨fun ⟨⟨_, hs⟩, hintegral⟩ => fits_of_parse? hs hintegral,
    fun h => ⟨⟨doc.text, parse?_text h⟩, isIntegral_of_fits h⟩⟩

end Json

/-! ## Calls of the convertors -/

/-- Wherever there is room for a call, the unit gives the value for these arguments and changes
nothing. -/
def NativeUnit.Gives (unit : NativeUnit) (args : List Value) (v : Value) : Prop :=
  ∀ (p : Program) (rounds levels : Nat) (m : Machine), m.context.depth < m.context.maxDepth →
    (call p rounds (levels + 1) (.native unit) args).on m = (.ok [v], m)

namespace Library

open Exec

/-- The unit that prints documents. -/
def printer : NativeUnit :=
  .typeMapper convertorsName "jsonToString" (.ref .json) .string jsonToString

/-- The unit that reads documents. -/
def reader : NativeUnit :=
  .typeMapper convertorsName "stringToJson" .string (.ref .json) stringToJson

theorem get?_printer : standard.get? "ballerina.lang.convertors:jsonToString" = some printer :=
  get?_standard _

theorem get?_reader : standard.get? "ballerina.lang.convertors:stringToJson" = some reader :=
  get?_standard _

theorem printer_gives (doc : Json) : printer.Gives [.json doc] (.str doc.text) := by
  intro p rounds levels m hroom
  obtain ⟨g, hprepare⟩ : ∃ g, prepare (.native printer) [.json doc] = .ok g := ⟨_, rfl⟩
  have hrun : jsonToString.on (m.withFrames (g :: m.context.frames)) =
      (.ok (.str doc.text), m.withFrames (g :: m.context.frames)) := by
    rw [jsonToString, on_bind_ok (on_argument_given hprepare rfl rfl rfl rfl)]
    rfl
  exact on_call_typeMapper hprepare hroom rfl rfl hrun (.cons ⟨rfl, rfl⟩ .nil) p rounds levels

theorem on_stringToJson {s : String} {m : Machine} {g : Frame}
    (hprepare : prepare (.native reader) [.str s] = .ok g) {fs : List Frame}
    (hm : m.context.frames = g :: fs) :
    stringToJson.on m = match Json.parse? s with
      | some doc => (.ok (.json doc), m)
      | none => (.error (.failed (.host "stringToJson: invalid JSON")), m) := by
  rw [stringToJson, on_bind_ok (on_stringArgument hprepare hm rfl rfl)]
  cases Json.parse? s <;> rfl

theorem reader_gives {s : String} {doc : Json} (h : Json.parse? s = some doc) :
    reader.Gives [.str s] (.json doc) := by
  intro p rounds levels m hroom
  obtain ⟨g, hprepare⟩ : ∃ g, prepare (.native reader) [.str s] = .ok g := ⟨_, rfl⟩
  have hrun := on_stringToJson (m := m.withFrames (g :: m.context.frames)) hprepare rfl
  rw [h] at hrun
  exact on_call_typeMapper hprepare hroom rfl rfl hrun (.cons ⟨rfl, rfl⟩ .nil) p rounds levels

/-- A call of the reader succeeds only for the text of a document. -/
theorem exists_parse?_of_reader {s : String} {p : Program} {rounds levels : Nat} {m m' : Machine}
    {vs : List Value}
    (h : (call p rounds levels (.native reader) [.str s]).on m = (.ok vs, m')) :
    ∃ doc, Json.parse? s = some doc ∧ vs = [.json doc] := by
  obtain ⟨⟨n, rfl⟩, hroom⟩ := room_of_call h
  cases hparse : Json.parse? s with
  | some doc =>
    rw [reader_gives hparse p rounds n m hroom] at h
    cases h
    exact ⟨doc, rfl, rfl⟩
  | none =>
    obtain ⟨g, hprepare⟩ : ∃ g, prepare (.native reader) [.str s] = .ok g := ⟨_, rfl⟩
    have hrun := on_stringToJson (m := m.withFrames (g :: m.context.frames)) hprepare rfl
    rw [hparse] at hrun
    have hfailed : reader.run.on (m.withFrames (g :: m.context.frames)) = _ := on_bind_error hrun
    rw [on_call_native hprepare hroom, on_unwinding_failed hfailed rfl] at h
    cases h

/-- **The JSON convertors are inverse to each other.** Let a call of `stringToJson` succeed. Then it
has given a document. If the numbers in it are all integers, `jsonToString` gives a text for it,
wherever there is room for a call; `stringToJson` gives a value for that text that equals the
document; and `jsonToString` gives the same text for that value.

**Proof sketch.** What was read is within the limits of the reader (`Json.fits_of_parse?`), and so
is read back from what is printed of it (`Json.parse?_text`), as the same document. -/
theorem convertors_inverse {reader printer : NativeUnit}
    (hreader : standard.get? "ballerina.lang.convertors:stringToJson" = some reader)
    (hprinter : standard.get? "ballerina.lang.convertors:jsonToString" = some printer)
    {s : String} {p : Program} {rounds levels : Nat} {m m' : Machine} {vs : List Value}
    (hcall : (call p rounds levels (.native reader) [.str s]).on m = (.ok vs, m')) :
    ∃ doc, vs = [.json doc] ∧ (doc.isIntegral = true → ∃ text w,
      printer.Gives [.json doc] (.str text) ∧ reader.Gives [.str text] w ∧
        (Value.json doc).equals w = true ∧ printer.Gives [w] (.str text)) := by
  cases get?_reader.symm.trans hreader
  cases get?_printer.symm.trans hprinter
  obtain ⟨doc, hparse, rfl⟩ := exists_parse?_of_reader hcall
  refine ⟨doc, rfl, fun hintegral => ⟨doc.text, .json doc, printer_gives doc, ?_,
    Value.equals_self _, printer_gives doc⟩⟩
  exact reader_gives (Json.parse?_text (Json.fits_of_parse? hparse hintegral))

/-- A text with white space, escapes, a repeated name and the ends of the range of integers. -/
def spaced : String :=
  " \x7b \"b\" : 1 , \"a\\u0041\" : [ -9223372036854775808 , 18446744073709551615 ] , " ++
    "\"b\" : \"\\u0000\\n\\ud83d\\ude00\" \x7d "

/-- The document of that text. -/
def spacedDoc : Json :=
  .obj [("aA", .arr [.int (-9223372036854775808), .int 18446744073709551615]),
    ("b", .str "\x00\n😀")]

/-- What the text stands for survives being printed and read. -/
theorem convertors_inverse_spaced :
    ∃ doc, Json.parse? spaced = some doc ∧ doc.equals spacedDoc = true ∧ ∃ text w,
      printer.Gives [.json doc] (.str text) ∧ reader.Gives [.str text] w ∧
        (Value.json doc).equals w = true ∧ printer.Gives [w] (.str text) := by
  have hread : (Json.parse? spaced).any
      (fun doc => doc.isIntegral && doc.equals spacedDoc) = true := by decide +kernel
  obtain ⟨doc, hparse, hdoc⟩ := Option.any_eq_true _ _ |>.mp hread
  rw [Bool.and_eq_true] at hdoc
  have hcall := reader_gives hparse {} maxRounds 0 { context := { maxDepth := 1 } } Nat.zero_lt_one
  obtain ⟨doc', hsame, hinverse⟩ := convertors_inverse get?_reader get?_printer hcall
  cases hsame
  exact ⟨doc, hparse, hdoc.2, hinverse hdoc.1⟩

end Library

end FrameScript
