import FrameScript.Json.Printer
import FrameScript.Json.Reader
import FrameScript.Proofs.Documents

set_option autoImplicit false

/-!
# Printed JSON is read back

The reader of JSON text undoes the printer on all documents without doubles that it can have read
itself. A document is printed in front of whatever follows it, and the reader hands that on: nothing
that may follow goes on with a number, which is the only part of a text without an end of its own.

## Main definitions

* `EndsValue` — what may follow a value.
* `Json.isIntegral` — all numbers in a document are integers.
* `Json.Fits` — a document of integers in the range of the reader, with room for its containers.
* `JsonText.Rereads` — the document is read at the front of its text.

## Main results

* `NumberText.read?_intText`, `NumberText.scalar?_intText` — integers are read back.
* `JsonText.readString_toList` — quoted texts are read back.
* `JsonText.rereads_of_fits` — documents that fit are read back, in front of anything.
* `Json.parse?_text` — what is printed of a document that fits is a text of that document.

## Implementation notes

The fuel of a reader is twice the length of what is left of the text. So all statements carry a bound
on the text with the rest, and `JsonText.length_le_write` tells how much of it a document uses up.
-/

namespace FrameScript

/-! ## Numbers -/

/-- What may stand behind a value: nothing, or a mark that no value goes on with. -/
def EndsValue (rest : List Char) : Prop :=
  ∀ c ∈ rest.head?, c ∈ [',', ']', '}']

theorem endsValue_nil : EndsValue [] := by
  simp [EndsValue]

theorem endsValue_cons {c : Char} (h : c ∈ [',', ']', '}']) (rest : List Char) :
    EndsValue (c :: rest) := by
  simpa [EndsValue] using h

/-- The digits in front of something else are those that are read. -/
theorem spanDigits_append {digits rest : List Char} (hdigits : ∀ c ∈ digits, c.isDigit = true)
    (hrest : EndsValue rest) : spanDigits (digits ++ rest) = (digits, rest) := by
  have hstop : rest.takeWhile Char.isDigit = [] ∧ rest.dropWhile Char.isDigit = rest := by
    cases rest with
    | nil => exact ⟨rfl, rfl⟩
    | cons c rest =>
      have hc := hrest c rfl
      have hdigit : c.isDigit = false := by
        simp only [List.mem_cons, List.not_mem_nil, or_false] at hc
        rcases hc with rfl | rfl | rfl <;> rfl
      simp [hdigit]
  rw [spanDigits, List.span_eq_takeWhile_dropWhile, List.takeWhile_append_of_pos hdigits,
    List.dropWhile_append_of_pos hdigits, hstop.1, hstop.2, List.append_nil]

/-- Only zero is written with a zero in front. -/
theorem head?_toDigits {n : Nat} (hn : 0 < n) : (Nat.toDigits 10 n).head? ≠ some '0' := by
  induction n using Nat.strongRecOn with
  | ind n ih =>
    by_cases hbase : 10 ≤ n
    · have hne : Nat.toDigits 10 (n / 10) ≠ [] := Nat.toDigits_ne_nil
      rw [Nat.toDigits_of_base_le (by decide) hbase, List.head?_append_of_ne_nil _ hne]
      exact ih (n / 10) (by omega) (by omega)
    · rw [Nat.toDigits_of_lt_base (by omega)]
      simp
      omega

namespace NumberText

theorem readWhole?_toDigits (n : Nat) {rest : List Char} (hrest : EndsValue rest) :
    readWhole? (Nat.toDigits 10 n ++ rest) = some (Nat.toDigits 10 n, rest) := by
  have hdigits : ∀ c ∈ Nat.toDigits 10 n, c.isDigit = true := fun c hc =>
    Nat.isDigit_of_mem_toDigits (by decide) (by decide) hc
  rw [readWhole?, spanDigits_append hdigits hrest]
  split
  next heq => exact absurd (congrArg Prod.fst heq) Nat.toDigits_ne_nil
  next d ds rest' heq =>
    have htext : Nat.toDigits 10 n = '0' :: d :: ds := congrArg Prod.fst heq
    rcases Nat.eq_zero_or_pos n with rfl | hn
    · simp at htext
    · exact absurd (by rw [htext]; rfl) (head?_toDigits hn)
  · rfl

theorem readUnsigned?_toDigits (negative : Bool) (n : Nat) {rest : List Char}
    (hrest : EndsValue rest) :
    readUnsigned? negative (Nat.toDigits 10 n ++ rest) =
      some (⟨negative, Nat.toDigits 10 n, none, none⟩, rest) := by
  rw [readUnsigned?, readWhole?_toDigits n hrest]
  cases rest with
  | nil => rfl
  | cons c rest =>
    have hc := hrest c rfl
    simp only [List.mem_cons, List.not_mem_nil, or_false] at hc
    rcases hc with rfl | rfl | rfl <;> rfl

theorem read?_intText (n : Int) {rest : List Char} (hrest : EndsValue rest) :
    read? (Json.intText n ++ rest) =
      some (⟨decide (n < 0), Nat.toDigits 10 n.natAbs, none, none⟩, rest) := by
  unfold Json.intText
  split
  next hneg =>
    rw [decide_eq_true hneg]
    exact readUnsigned?_toDigits true _ hrest
  next hpos =>
    rw [decide_eq_false hpos, ← readUnsigned?_toDigits false _ hrest, read?]
    rintro cs heq
    obtain ⟨c, ds, hcons⟩ := List.exists_cons_of_ne_nil (Nat.toDigits_ne_nil (n := n.natAbs) (b := 10))
    have hdigit : c.isDigit = true :=
      Nat.isDigit_of_mem_toDigits (by decide) (by decide) (hcons ▸ List.mem_cons_self)
    rw [hcons, List.cons_append] at heq
    cases heq
    cases hdigit

theorem le_ofDigitChars (digits : List Char) (n : Nat) : n ≤ Nat.ofDigitChars 10 digits n := by
  rw [Nat.ofDigitChars_eq_ofDigitChars_zero]
  exact (Nat.le_mul_of_pos_left n (Nat.pow_pos (by decide))).trans (Nat.le_add_right _ _)

/-- Digits of a number of 64 bits are all taken in. -/
theorem absorb_of_lt {digits : List Char} {n : Nat}
    (h : Nat.ofDigitChars 10 digits n < UInt64.size) :
    absorb n digits = (Nat.ofDigitChars 10 digits n, []) := by
  induction digits generalizing n with
  | nil => rfl
  | cons d digits ih =>
    rw [Nat.ofDigitChars_cons] at h ⊢
    have hnext : 10 * n + digitValue d < UInt64.size := (le_ofDigitChars _ _).trans_lt h
    rw [absorb, if_pos hnext]
    exact ih h

/-- What is taken in are 64 bits. -/
theorem absorb_lt (digits : List Char) {n : Nat} (hn : n < UInt64.size) :
    (absorb n digits).1 < UInt64.size := by
  induction digits generalizing n with
  | nil => exact hn
  | cons d digits ih =>
    rw [absorb]
    split
    next hnext => exact ih hnext
    · exact hn

/-- An integer of at most 64 bits is what its digits stand for. -/
theorem scalar?_intText {n : Int} (hn : -2 ^ 63 ≤ n ∧ n < 2 ^ 64) :
    scalar? ⟨decide (n < 0), Nat.toDigits 10 n.natAbs, none, none⟩ = some (.int n) := by
  have hsize : UInt64.size = 18446744073709551616 := rfl
  have habs : absorb 0 (Nat.toDigits 10 n.natAbs) = (n.natAbs, []) := by
    have hlt : Nat.ofDigitChars 10 (Nat.toDigits 10 n.natAbs) 0 < UInt64.size := by
      rw [Nat.ofDigitChars_ten_toDigits]
      omega
    rw [absorb_of_lt hlt, Nat.ofDigitChars_ten_toDigits]
  simp only [scalar?, habs]
  by_cases hneg : n < 0
  · have hsmall : (n.natAbs == 0 || decide (0x8000000000000000 < n.natAbs)) = false := by
      simp
      omega
    rw [decide_eq_true hneg, if_neg (by decide), if_neg (by rw [hsmall]; decide)]
    have : -Int.ofNat n.natAbs = n := by
      rw [Int.ofNat_eq_natCast]
      omega
    rw [this]
  · rw [decide_eq_false hneg, if_pos (by decide)]
    have : Int.ofNat n.natAbs = n := by
      rw [Int.ofNat_eq_natCast]
      omega
    rw [this]

/-- An integer that is read has at most 64 bits. -/
theorem int_of_scalar? {t : NumberText} {n : Int} (h : t.scalar? = some (.int n)) :
    -2 ^ 63 ≤ n ∧ n < 2 ^ 64 := by
  have hlt : (absorb 0 t.whole).1 < UInt64.size := absorb_lt t.whole (by decide)
  have hsize : UInt64.size = 18446744073709551616 := rfl
  unfold scalar? at h
  generalize absorb 0 t.whole = absorbed at h hlt
  obtain ⟨whole, skipped⟩ := absorbed
  simp only [Int.ofNat_eq_natCast] at h hlt
  split at h
  · split at h
    · cases h
      omega
    · split at h
      · cases h
      next hsmall =>
        cases h
        simp at hsmall
        omega
  · obtain ⟨x, -, hx⟩ := Option.map_eq_some_iff.mp h
    cases hx

end NumberText

/-! ## Quoted texts -/

namespace JsonText

open Json

/-- A control character is read back from its number. -/
theorem hexNumber?_control {n : Nat} (hn : n < 32) :
    hexNumber? ['0', '0', Nat.digitChar (n / 16), Nat.digitChar (n % 16)] = some n := by
  revert n
  decide

theorem readString_writeChar (c : Char) (read : List Char) (sound : Bool) (rest : List Char) :
    readString read sound (writeChar c rest) = readString (c :: read) sound rest := by
  unfold writeChar
  split
  next h =>
    obtain rfl : c = '"' := eq_of_beq h
    rfl
  split
  next h =>
    obtain rfl : c = '\\' := eq_of_beq h
    rfl
  split
  next h =>
    obtain rfl : c = '\n' := eq_of_beq h
    rfl
  split
  next h =>
    obtain rfl : c = '\r' := eq_of_beq h
    rfl
  split
  next h =>
    obtain rfl : c = '\t' := eq_of_beq h
    rfl
  split
  next h =>
    obtain rfl : c = Char.ofNat 8 := by rw [← eq_of_beq h, Char.ofNat_toNat]
    rfl
  split
  next h =>
    obtain rfl : c = Char.ofNat 12 := by rw [← eq_of_beq h, Char.ofNat_toNat]
    rfl
  split
  next h =>
    rw [readString, if_neg (by decide), if_pos (by decide)]
    simp only [hexNumber?_control h]
    rw [if_neg (by simp [isHighSurrogate]; omega), if_neg (by simp [isLowSurrogate]; omega),
      Char.ofNat_toNat]
  next hquote hbackslash _ _ _ _ _ hcontrol =>
    rw [readString.eq_def]
    simp only
    rw [if_neg hquote, if_neg hbackslash, if_neg hcontrol]

theorem readString_writeChars (cs read rest : List Char) :
    readString read true (writeChars cs rest) =
      some (some (String.ofList (read.reverse ++ cs)), rest) := by
  induction cs generalizing read with
  | nil =>
    rw [writeChars, List.foldr_nil, readString.eq_def, List.append_nil]
    rfl
  | cons c cs ih =>
    rw [writeChars, List.foldr_cons, readString_writeChar]
    refine (ih (c :: read)).trans ?_
    rw [List.reverse_cons, List.append_assoc, List.singleton_append]

/-- A quoted text is read back behind its opening quote. -/
theorem readString_toList (s : String) (rest : List Char) :
    readString [] true (writeChars s.toList rest) = some (some s, rest) := by
  rw [readString_writeChars, List.reverse_nil, List.nil_append, String.ofList_toList]

end JsonText

/-! ## Documents of integers -/

namespace Json

mutual

/-- All numbers in the document are integers. -/
def isIntegral : Json → Bool
  | .float _ => false
  | .arr items => isIntegralItems items
  | .obj members => isIntegralMembers members
  | .null | .bool _ | .int _ | .str _ => true

/-- All numbers in the items are integers. -/
def isIntegralItems : List Json → Bool
  | [] => true
  | item :: items => item.isIntegral && isIntegralItems items

/-- All numbers in the members are integers. -/
def isIntegralMembers : List (String × Json) → Bool
  | [] => true
  | (_, value) :: members => value.isIntegral && isIntegralMembers members

end

theorem isIntegralItems_iff {items : List Json} :
    isIntegralItems items = true ↔ ∀ item ∈ items, item.isIntegral = true := by
  induction items with
  | nil => simp [isIntegralItems]
  | cons item items ih => simp [isIntegralItems, ih]

theorem isIntegralMembers_iff {members : List (String × Json)} :
    isIntegralMembers members = true ↔ ∀ member ∈ members, member.2.isIntegral = true := by
  induction members with
  | nil => simp [isIntegralMembers]
  | cons member members ih =>
    obtain ⟨name, value⟩ := member
    simp [isIntegralMembers, ih]

/-- A document whose numbers are integers of 64 bits, signed or unsigned, whose objects have their
members in order, and whose arrays and objects are inside each other at most `room` times. -/
inductive Fits : Nat → Json → Prop
  | null {room : Nat} : Fits room .null
  | bool {room : Nat} (b : Bool) : Fits room (.bool b)
  | int {room : Nat} {n : Int} (hn : -2 ^ 63 ≤ n ∧ n < 2 ^ 64) : Fits room (.int n)
  | str {room : Nat} (s : String) : Fits room (.str s)
  | arr {room : Nat} {items : List Json} (hitems : ∀ item ∈ items, Fits room item) :
    Fits (room + 1) (.arr items)
  | obj {room : Nat} {members : List (String × Json)}
    (hsorted : members.Pairwise fun m m' => m.1 < m'.1)
    (hmembers : ∀ member ∈ members, Fits room member.2) : Fits (room + 1) (.obj members)

theorem Fits.canonical {room : Nat} {doc : Json} (h : doc.Fits room) : doc.Canonical := by
  induction h with
  | null => exact .null
  | bool b => exact .bool b
  | int => exact .int _
  | str s => exact .str s
  | arr _ ih => exact .arr ih
  | obj hsorted _ ih => exact .obj hsorted ih

end Json

namespace JsonText

open Json

/-! ## Reading what was printed -/

theorem skipBlank_cons {c : Char} (hc : c ∉ [' ', '\n', '\t', '\r']) (cs : List Char) :
    skipBlank (c :: cs) = c :: cs := by
  have hblank : (c == ' ' || c == '\n' || c == '\t' || c == '\r') = false := by
    simpa [and_assoc] using hc
  rw [skipBlank, hblank, if_neg Bool.false_ne_true]

theorem length_le_writeChars (cs rest : List Char) :
    rest.length < (writeChars cs rest).length := by
  induction cs with
  | nil => simp [writeChars]
  | cons c cs ih =>
    have hchar (cs : List Char) : cs.length ≤ (writeChar c cs).length := by
      unfold writeChar
      repeat' split
      all_goals simp <;> omega
    rw [writeChars, List.foldr_cons]
    exact ih.trans_le (hchar _)

mutual

/-- A document is printed in front of the rest. -/
theorem length_le_write : ∀ (doc : Json) (rest : List Char), rest.length ≤ (doc.write rest).length
  | .null, rest | .bool true, rest | .bool false, rest | .arr [], rest | .obj [], rest
  | .int _, rest | .float _, rest => by
    simp only [write, List.length_cons, List.length_append]
    omega
  | .str s, rest => by
    have hstring := length_le_writeChars s.toList rest
    simp only [write, writeString, List.length_cons]
    omega
  | .arr (item :: items), rest => by
    have hitem := length_le_write item (writeItems items (']' :: rest))
    have hitems := length_le_writeItems items (']' :: rest)
    simp only [write, List.length_cons] at hitems ⊢
    omega
  | .obj ((name, value) :: members), rest => by
    have hname := length_le_writeChars name.toList
      (':' :: value.write (writeMembers members ('}' :: rest)))
    have hvalue := length_le_write value (writeMembers members ('}' :: rest))
    have hmembers := length_le_writeMembers members ('}' :: rest)
    simp only [write, writeString, List.length_cons] at hname hmembers ⊢
    omega

theorem length_le_writeItems :
    ∀ (items : List Json) (rest : List Char), rest.length ≤ (writeItems items rest).length
  | [], rest => Nat.le_refl _
  | item :: items, rest => by
    have hitem := length_le_write item (writeItems items rest)
    have hitems := length_le_writeItems items rest
    simp only [writeItems, List.length_cons]
    omega

theorem length_le_writeMembers : ∀ (members : List (String × Json)) (rest : List Char),
    rest.length ≤ (writeMembers members rest).length
  | [], rest => Nat.le_refl _
  | (name, value) :: members, rest => by
    have hname := length_le_writeChars name.toList (':' :: value.write (writeMembers members rest))
    have hvalue := length_le_write value (writeMembers members rest)
    have hmembers := length_le_writeMembers members rest
    simp only [writeMembers, writeString, List.length_cons] at hname ⊢
    omega

end

/-- With that much room, the document is read at the front of its text. -/
def Rereads (room : Nat) (doc : Json) : Prop :=
  ∀ (fuel : Nat) (rest : List Char), EndsValue rest → 2 * (doc.write rest).length < fuel →
    readValue fuel room (doc.write rest) = some (Document.ofJson doc, rest)

theorem endsValue_writeItems (items : List Json) (rest : List Char) :
    EndsValue (writeItems items (']' :: rest)) := by
  cases items <;> exact endsValue_cons (by simp) _

theorem endsValue_writeMembers (members : List (String × Json)) (rest : List Char) :
    EndsValue (writeMembers members ('}' :: rest)) := by
  cases members <;> exact endsValue_cons (by simp) _

/-- The items of an array are read up to its end.

The induction is on the items behind the first, with what was read before it generalized. -/
theorem readItems_write {room : Nat} {item : Json} {items : List Json} (hitem : Rereads room item)
    (hitems : ∀ item ∈ items, Rereads room item) (read : List Document) {fuel : Nat}
    {rest : List Char} (hfuel : 2 * (item.write (writeItems items (']' :: rest))).length + 1 < fuel) :
    readItems fuel room read (item.write (writeItems items (']' :: rest))) =
      some (read.reverse ++ (item :: items).map Document.ofJson, rest) := by
  induction items generalizing item read fuel with
  | nil =>
    obtain ⟨fuel, rfl⟩ := Nat.exists_eq_succ_of_ne_zero (Nat.ne_zero_of_lt hfuel)
    rw [readItems, hitem fuel _ (endsValue_writeItems _ _) (by omega)]
    simp [writeItems, skipBlank]
  | cons next items ih =>
    obtain ⟨fuel, rfl⟩ := Nat.exists_eq_succ_of_ne_zero (Nat.ne_zero_of_lt hfuel)
    have hshorter := length_le_write item (writeItems (next :: items) (']' :: rest))
    rw [readItems, hitem fuel _ (endsValue_writeItems _ _) (by omega)]
    have hnext : 2 * (next.write (writeItems items (']' :: rest))).length + 1 < fuel := by
      rw [writeItems, List.length_cons] at hshorter
      rw [writeItems] at hfuel
      omega
    rw [List.forall_mem_cons] at hitems
    simp only [writeItems, skipBlank]
    refine (ih hitems.1 hitems.2 (Document.ofJson item :: read) hnext).trans ?_
    simp

theorem length_le_writeEntry (name : String) (value : Json) (rest : List Char) :
    rest.length + 2 < (writeString name (':' :: value.write rest)).length := by
  have hname := length_le_writeChars name.toList (':' :: value.write rest)
  have hvalue := length_le_write value rest
  simp only [writeString, List.length_cons] at hname ⊢
  omega

/-- A member of an object is read up to the mark behind it. -/
theorem readEntries_entry {room : Nat} {name : String} {value : Json} (hvalue : Rereads room value)
    {read : List (Document × Document)} {fuel : Nat} {members : List (String × Json)}
    {rest : List Char}
    (hfuel : 2 * (writeString name (':' :: value.write
      (writeMembers members ('}' :: rest)))).length + 1 < fuel + 1) :
    readEntries (fuel + 1) room read
      (writeString name (':' :: value.write (writeMembers members ('}' :: rest)))) =
        match skipBlank (writeMembers members ('}' :: rest)) with
        | ',' :: rest =>
          readEntries fuel room ((ofString (some name), Document.ofJson value) :: read) rest
        | '}' :: rest =>
          some (((ofString (some name), Document.ofJson value) :: read).reverse, rest)
        | _ => none := by
  have hname := length_le_writeChars name.toList
    (':' :: value.write (writeMembers members ('}' :: rest)))
  rw [writeString, List.length_cons] at hfuel
  rw [List.length_cons] at hname
  have hread := hvalue fuel _ (endsValue_writeMembers members rest) (by omega)
  rw [readEntries, writeString]
  simp only [skipBlank_cons (c := '"') (by decide)]
  rw [readString_toList]
  simp only [skipBlank_cons (c := ':') (by decide)]
  rewrite [hread]
  rfl

/-- The members of an object are read up to its end. -/
theorem readEntries_write {room : Nat} {name : String} {value : Json}
    {members : List (String × Json)} (hvalue : Rereads room value)
    (hmembers : ∀ member ∈ members, Rereads room member.2) (read : List (Document × Document))
    {fuel : Nat} {rest : List Char}
    (hfuel : 2 * (writeString name (':' :: value.write
      (writeMembers members ('}' :: rest)))).length + 1 < fuel) :
    readEntries fuel room read
      (writeString name (':' :: value.write (writeMembers members ('}' :: rest)))) =
        some (read.reverse ++ ((name, value) :: members).map
          fun member => (Document.ofText member.1, Document.ofJson member.2), rest) := by
  induction members generalizing name value read fuel with
  | nil =>
    obtain ⟨fuel, rfl⟩ := Nat.exists_eq_succ_of_ne_zero (Nat.ne_zero_of_lt hfuel)
    rw [readEntries_entry hvalue hfuel]
    simp [writeMembers, skipBlank, ofString]
  | cons next members ih =>
    obtain ⟨fuel, rfl⟩ := Nat.exists_eq_succ_of_ne_zero (Nat.ne_zero_of_lt hfuel)
    rw [readEntries_entry hvalue hfuel]
    have hshorter := length_le_writeEntry name value (writeMembers (next :: members) ('}' :: rest))
    have hnext : 2 * (writeString next.1 (':' :: next.2.write
        (writeMembers members ('}' :: rest)))).length + 1 < fuel := by
      rw [writeMembers, List.length_cons] at hshorter
      rw [writeMembers] at hfuel
      omega
    rw [List.forall_mem_cons] at hmembers
    simp only [writeMembers, skipBlank]
    refine (ih hmembers.1 hmembers.2 _ hnext).trans ?_
    simp [ofString]

/-- A character that a number starts with. -/
def startsNumber (c : Char) : Bool :=
  c == '-' || c.isDigit

theorem exists_intText_eq_cons (n : Int) : ∃ c cs, intText n = c :: cs ∧ startsNumber c = true := by
  unfold intText
  split
  · exact ⟨_, _, rfl, rfl⟩
  · obtain ⟨c, cs, hcons⟩ :=
      List.exists_cons_of_ne_nil (Nat.toDigits_ne_nil (n := n.natAbs) (b := 10))
    have hdigit : c.isDigit = true :=
      Nat.isDigit_of_mem_toDigits (by decide) (by decide) (hcons ▸ List.mem_cons_self)
    exact ⟨c, cs, hcons, by rw [startsNumber, hdigit, Bool.or_true]⟩

/-- White space and the marks of JSON text start no number. -/
theorem not_mem_of_startsNumber {c : Char} (hc : startsNumber c = true) :
    c ∉ [' ', '\n', '\t', '\r', ']', '"', '[', '{', 'n', 't', 'f'] := by
  have hnone : [' ', '\n', '\t', '\r', ']', '"', '[', '{', 'n', 't', 'f'].any startsNumber = false :=
    rfl
  exact fun hmem => List.any_eq_false.mp hnone c hmem hc

/-- What is printed of a document has no white space in front, nor the end of an array. -/
theorem skipBlank_write {room : Nat} {doc : Json} (hdoc : doc.Fits room) (rest : List Char) :
    skipBlank (doc.write rest) = doc.write rest ∧ (doc.write rest).head? ≠ some ']' := by
  cases hdoc with
  | null => exact ⟨rfl, by simp [write]⟩
  | bool b => cases b <;> exact ⟨rfl, by simp [write]⟩
  | str s => exact ⟨rfl, by simp [write, writeString]⟩
  | @arr _ items _ => cases items <;> exact ⟨rfl, by simp [write]⟩
  | @obj _ members _ _ => cases members <;> exact ⟨rfl, by simp [write]⟩
  | @int _ n _ =>
    obtain ⟨c, cs, hcons, hc⟩ := exists_intText_eq_cons n
    have hmark := not_mem_of_startsNumber hc
    rw [write, hcons, List.cons_append]
    exact ⟨skipBlank_cons (by simp_all) _, by simp_all⟩

/-- A text that starts like a number is read as one. -/
theorem readValue_number {c : Char} (hc : startsNumber c = true) (fuel room : Nat) (cs : List Char) :
    readValue (fuel + 1) room (c :: cs) =
      (NumberText.read? (c :: cs)).map fun (t, rest) => (ofNumber t, rest) := by
  have hmark := not_mem_of_startsNumber hc
  rw [readValue, skipBlank_cons (by simp_all)]
  split <;> simp_all

/-- An integer is read back. -/
theorem rereads_int {room : Nat} {n : Int} (hn : -2 ^ 63 ≤ n ∧ n < 2 ^ 64) :
    Rereads room (.int n) := by
  intro fuel rest hrest hfuel
  obtain ⟨fuel, rfl⟩ := Nat.exists_eq_succ_of_ne_zero (Nat.ne_zero_of_lt hfuel)
  have hread := NumberText.read?_intText n hrest
  obtain ⟨c, cs, hcons, hc⟩ := exists_intText_eq_cons n
  rw [write, hcons, List.cons_append, readValue_number hc, ← List.cons_append, ← hcons, hread,
    Option.map_some]
  simp only [ofNumber, NumberText.scalar?_intText hn]
  rfl

/-- The items of an array are what is behind its opening bracket, unless that is the end of it. -/
theorem readValue_items {fuel room : Nat} {cs : List Char} (hblank : skipBlank cs = cs)
    (hend : cs.head? ≠ some ']') :
    readValue (fuel + 1) room ('[' :: cs) = (readItems fuel (room - 1) [] cs).map
      fun (items, rest) => (inRoom room (.list items), rest) := by
  rw [readValue]
  simp only [skipBlank_cons (c := '[') (by decide), hblank]
  split <;> simp_all

/-- The members of an object are what is behind its opening brace, from the quote of the first. -/
theorem readValue_entries (fuel room : Nat) (cs : List Char) :
    readValue (fuel + 1) room ('{' :: '"' :: cs) = (readEntries fuel (room - 1) [] ('"' :: cs)).map
      fun (entries, rest) => (inRoom room (.table entries), rest) := by
  rw [readValue]
  simp only [skipBlank_cons (c := '{') (by decide), skipBlank_cons (c := '"') (by decide)]
  rfl

/-- **Documents that fit are read back.** -/
theorem rereads_of_fits {room : Nat} {doc : Json} (hdoc : doc.Fits room) : Rereads room doc := by
  induction hdoc with
  | int hn => exact rereads_int hn
  | null =>
    rintro (_ | fuel) rest hrest hfuel
    · cases hfuel
    · rfl
  | bool b =>
    rintro (_ | fuel) rest hrest hfuel
    · cases hfuel
    · cases b <;> rfl
  | str s =>
    rintro (_ | fuel) rest hrest hfuel
    · cases hfuel
    · rw [write, readValue, writeString]
      simp only [skipBlank_cons (c := '"') (by decide)]
      rw [readString_toList]
      rfl
  | @arr room items hitems ih =>
    rintro (_ | fuel) rest hrest hfuel
    · cases hfuel
    · cases items with
      | nil => rfl
      | cons item items =>
        rw [List.forall_mem_cons] at hitems ih
        obtain ⟨hblank, hend⟩ := skipBlank_write hitems.1 (writeItems items (']' :: rest))
        rw [write, List.length_cons] at hfuel
        rw [write, readValue_items hblank hend, Nat.add_sub_cancel,
          readItems_write ih.1 ih.2 [] (by omega), Document.ofJson, Document.ofJsonItems_eq]
        rfl
  | @obj room members hsorted hmembers ih =>
    rintro (_ | fuel) rest hrest hfuel
    · cases hfuel
    · cases members with
      | nil => rfl
      | cons member members =>
        obtain ⟨name, value⟩ := member
        rw [List.forall_mem_cons] at ih
        have hvalue : Rereads room value := ih.1
        rw [write, List.length_cons] at hfuel
        have hfuel' : 2 * (writeString name (':' :: value.write
            (writeMembers members ('}' :: rest)))).length + 1 < fuel := by omega
        have hread := readEntries_write hvalue ih.2 [] hfuel'
        rw [writeString] at hread
        rw [write, writeString, readValue_entries, Nat.add_sub_cancel, hread, Document.ofJson,
          Document.ofJsonMembers_eq]
        rfl

end JsonText

namespace Json

open JsonText

/-- **Printed documents are read back.** The text of a document of integers that fits into the room
of the reader is a text of that document.

**Proof sketch.** Induction on the document (`JsonText.rereads_of_fits`): each printer puts its
output in front of a rest, and the reader finds it there and leaves the rest. The raw document that
is read has the members in their order, so that nothing is lost or moved when it is taken as a
free-form one. -/
theorem parse?_text {doc : Json} (hdoc : doc.Fits maxNesting) : parse? doc.text = some doc := by
  have hread : Document.ofJsonText? doc.text = some (Document.ofJson doc) := by
    have hall := rereads_of_fits hdoc (2 * (doc.write []).length + 2) [] endsValue_nil (by omega)
    rw [Document.ofJsonText?, read?, text, String.toList_ofList]
    simp only [hall]
    rfl
  rw [parse?, hread, Option.bind_some, (Document.readable_ofJson hdoc.canonical).toJson?_eq,
    Document.written_ofJson hdoc.canonical]

end Json

end FrameScript
