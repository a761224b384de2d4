import FrameScript.Ty

set_option autoImplicit false

/-!
# The written form of types

A type that was read from a text is read back from its own written form. The text may have had white
space around the type or around the elements of an array; the written form has none. The types that
can be read are those whose structs and connectors have names that can be read.

## Main definitions

* `Ty.IsWritten` — a type that its written form stands for.
* `Ty.isWellFormed` — all names in the type can be read.

## Main results

* `Ty.isWritten_of_isWellFormed` — a well-formed type is read back from its written form.
* `Ty.isWritten_of_parse?` — and so is all that is read from a text.
* `Ty.parsing_inverts_text` — the well-formed types are those that can be read, and each of them is
  read from its written form.
-/

namespace FrameScript

namespace Text

/-! ## Characters of names -/

theorem mem_of_inRanges {ranges : List (Nat × Nat)} {c : Char} (h : inRanges ranges c = true) :
    c.toNat ∈ ranges.flatMap fun range => List.range' range.1 (range.2 + 1 - range.1) := by
  obtain ⟨range, hrange, hin⟩ := List.any_eq_true.mp h
  refine List.mem_flatMap.mpr ⟨range, hrange, List.mem_range'_1.mpr ?_⟩
  simp only [Bool.and_eq_true, decide_eq_true_eq] at hin
  omega

/-- A character of a name is no white space. -/
theorem isWhiteSpace_of_continuesName {c : Char} (h : continuesName c = true) :
    isWhiteSpace c = false := by
  have hspaces : ∀ n ∈ whiteSpaceRanges.flatMap fun range =>
      List.range' range.1 (range.2 + 1 - range.1), continuesName (Char.ofNat n) = false := by
    decide +kernel
  rw [← Bool.not_eq_true]
  intro hspace
  have hnot := hspaces _ (mem_of_inRanges hspace)
  rw [Char.ofNat_toNat, h] at hnot
  cases hnot

theorem continuesName_of_startsName {c : Char} (h : startsName c = true) :
    continuesName c = true := by
  simp only [startsName, continuesName, isAlphabetic, isAlphanumeric, Char.isAlphanum] at h ⊢
  split at h <;> simp_all <;> grind

theorem isIdentifier_forall {cs : List Char} (h : isIdentifier cs = true) :
    cs ≠ [] ∧ ∀ c ∈ cs, continuesName c = true := by
  cases cs with
  | nil => cases h
  | cons c cs =>
    simp only [isIdentifier, Bool.and_eq_true, List.all_eq_true] at h
    exact ⟨nofun, List.forall_mem_cons.mpr ⟨continuesName_of_startsName h.1, h.2⟩⟩

/-- There is no white space in front of a name. -/
theorem trimStart_eq_self {cs : List Char} (h : ∀ c ∈ cs, continuesName c = true) :
    trimStart cs = cs := by
  cases cs with
  | nil => rfl
  | cons c cs =>
    have hc := isWhiteSpace_of_continuesName (h c List.mem_cons_self)
    simp [trimStart, hc]

theorem trim_eq_self {cs : List Char} (h : ∀ c ∈ cs, continuesName c = true) : trim cs = cs := by
  have hreverse : trimStart cs.reverse = cs.reverse :=
    trimStart_eq_self fun c hc => h c (List.mem_reverse.mp hc)
  unfold trimStart at hreverse
  rw [trim, trimStart_eq_self h, trimEnd, hreverse, List.reverse_reverse]

end Text

namespace Ty

/-! ## Reading a written type -/

/-- The type is what its written form stands for. -/
def IsWritten (ty : Ty) : Prop :=
  parse? ty.text = some ty

instance (ty : Ty) : Decidable ty.IsWritten :=
  inferInstanceAs (Decidable (_ = _))

/-- A text that ends in a character of a name is the text of a type that is no array. -/
theorem parseReversed?_of_name {c : Char} {before : List Char} (hc : Text.continuesName c = true) :
    parseReversed? (c :: before) = parseElement? (Text.trimStart (c :: before).reverse) := by
  rw [parseReversed?, Text.isWhiteSpace_of_continuesName hc, if_neg Bool.false_ne_true]
  rintro element rfl -
  exact absurd hc (by decide)

/-- A text that is a name with something in front of it that does not start with white space is read
as it stands. -/
theorem parse?_append_name {front name : List Char} (hfront : Text.trimStart (front ++ name) =
    front ++ name) (hname : Text.isIdentifier name = true) :
    parse? (String.ofList (front ++ name)) = parseElement? (front ++ name) := by
  obtain ⟨hne, hchars⟩ := Text.isIdentifier_forall hname
  obtain ⟨initial, last, rfl⟩ : ∃ initial last, name = initial ++ [last] :=
    ⟨_, _, (List.dropLast_concat_getLast hne).symm⟩
  have hlast : Text.continuesName last = true := hchars last (by simp)
  have hreverse : (front ++ (initial ++ [last])).reverse = last :: (front ++ initial).reverse := by
    simp
  rw [parse?, String.toList_ofList, hreverse, parseReversed?_of_name hlast, ← hreverse,
    List.reverse_reverse, hfront]

theorem after?_append (mark cs : List Char) : after? mark (mark ++ cs) = some cs := by
  induction mark with
  | nil => rfl
  | cons m mark ih => simp [after?, ih]

/-! ## Reserved words -/

/-- The words that stand for a type of their own and therefore name no struct. -/
def reservedWords : List String :=
  ["int", "float", "boolean", "string", "any", "map", "json", "xml", "message", "null"]

theorem ofKeyword?_eq_none_iff {s : String} : ofKeyword? s = none ↔ s ∉ reservedWords := by
  unfold ofKeyword?
  split <;> simp_all [reservedWords]

end Ty

/-! ## Well-formed types -/

mutual

/-- All structs and connectors that the type mentions have names that can be read. -/
def Ty.isWellFormed : Ty → Bool
  | .ref r => r.isWellFormed
  | .int | .float | .boolean | .string | .any => true

/-- All structs and connectors that the reference type mentions have names that can be read: each is
an identifier, and no struct has a reserved word for its name. -/
def RefTy.isWellFormed : RefTy → Bool
  | .array elem => elem.isWellFormed
  | .struct name => Text.isIdentifier name.toList && !Ty.reservedWords.contains name
  | .connector name => Text.isIdentifier name.toList
  | .map | .message | .xml | .json | .null => true

end

namespace Ty

theorem isWellFormed_of_ofKeyword? {s : String} {ty : Ty} (h : ofKeyword? s = some ty) :
    ty.isWellFormed = true := by
  unfold ofKeyword? at h
  split at h <;> cases h <;> rfl

theorem isWellFormed_of_parseElement? {cs : List Char} {ty : Ty} (h : parseElement? cs = some ty) :
    ty.isWellFormed = true := by
  unfold parseElement? at h
  split at h
  · simp only at h
    split at h
    next hname =>
      cases h
      simpa [isWellFormed, RefTy.isWellFormed] using hname
    · cases h
  · split at h
    next hkeyword =>
      cases h
      exact isWellFormed_of_ofKeyword? hkeyword
    next hkeyword =>
      split at h
      next hname =>
        cases h
        simpa [isWellFormed, RefTy.isWellFormed, hname] using ofKeyword?_eq_none_iff.mp hkeyword
      · cases h

theorem isWellFormed_of_parseReversed? {cs : List Char} {ty : Ty}
    (h : parseReversed? cs = some ty) : ty.isWellFormed = true := by
  fun_induction parseReversed? cs generalizing ty with
  | case1 => cases h
  | case2 c before hspace ih => exact ih h
  | case3 element hspace ih =>
    obtain ⟨elem, helem, rfl⟩ := Option.map_eq_some_iff.mp h
    have hwell : elem.isWellFormed = true := ih helem
    exact hwell
  | case4 c before hspace hbracket => exact isWellFormed_of_parseElement? h

theorem isWellFormed_of_parse? {s : String} {ty : Ty} (h : parse? s = some ty) :
    ty.isWellFormed = true :=
  isWellFormed_of_parseReversed? h

/-! ## Reading what was written -/

theorem isWritten_connector {name : String} (hname : Text.isIdentifier name.toList = true) :
    (Ty.ref (.connector name)).IsWritten := by
  have htext : (Ty.ref (.connector name)).text =
      String.ofList ("connector ".toList ++ name.toList) := by
    rw [String.ofList_append, String.ofList_toList, String.ofList_toList]
    rfl
  have hfront : Text.trimStart ("connector ".toList ++ name.toList) =
      "connector ".toList ++ name.toList := rfl
  rw [IsWritten, htext, parse?_append_name hfront hname, parseElement?, after?_append]
  simp only
  rw [Text.trim_eq_self (Text.isIdentifier_forall hname).2, if_pos hname, String.ofList_toList]

theorem eq_append_of_after? {mark cs rest : List Char} (h : after? mark cs = some rest) :
    cs = mark ++ rest := by
  fun_induction after? mark cs with
  | case1 cs => simpa using h
  | case2 => cases h
  | case3 m mark c cs heq ih => rw [ih h, eq_of_beq heq, List.cons_append]
  | case4 => cases h

/-- An identifier does not start like the text of a connector, since it has no space in it. -/
theorem after?_eq_none {cs : List Char} (h : ∀ c ∈ cs, Text.continuesName c = true) :
    after? "connector ".toList cs = none := by
  refine Option.eq_none_iff_forall_ne_some.mpr fun rest hafter => ?_
  have hspace : ' ' ∈ cs := by simp [eq_append_of_after? hafter]
  exact absurd (h ' ' hspace) (by decide +kernel)

theorem isWritten_struct {name : String} (hname : Text.isIdentifier name.toList = true)
    (hreserved : name ∉ reservedWords) : (Ty.ref (.struct name)).IsWritten := by
  have hchars := (Text.isIdentifier_forall hname).2
  have hparse : parse? (String.ofList ([] ++ name.toList)) = parseElement? ([] ++ name.toList) :=
    parse?_append_name (Text.trimStart_eq_self hchars) hname
  rw [List.nil_append, String.ofList_toList] at hparse
  rw [IsWritten, Ty.text, RefTy.text, hparse, parseElement?, after?_eq_none hchars]
  simp only [String.ofList_toList, ofKeyword?_eq_none_iff.mpr hreserved]
  rw [if_pos hname]

/-- The brackets of an array are taken off again before its elements are read. -/
theorem isWritten_arrayOf {elem : Ty} (h : elem.IsWritten) : (arrayOf elem).IsWritten := by
  have hread : parseReversed? elem.text.toList.reverse = some elem := h
  have htext : (arrayOf elem).text.toList.reverse = ']' :: '[' :: elem.text.toList.reverse := by
    simp [Ty.text, RefTy.text]
  rw [IsWritten, parse?, htext, parseReversed?, if_neg (by decide), hread]
  rfl

end Ty

mutual

theorem Ty.isWritten_of_isWellFormed :
    ∀ {ty : Ty}, ty.isWellFormed = true → ty.IsWritten
  | .int, _ | .float, _ | .boolean, _ | .string, _ | .any, _ => by decide +kernel
  | .ref _, h => RefTy.isWritten_of_isWellFormed h

theorem RefTy.isWritten_of_isWellFormed :
    ∀ {r : RefTy}, r.isWellFormed = true → (Ty.ref r).IsWritten
  | .array _, h => Ty.isWritten_arrayOf (Ty.isWritten_of_isWellFormed h)
  | .struct name, h => by
    simp only [RefTy.isWellFormed, Bool.and_eq_true, Bool.not_eq_true', List.contains_eq_mem,
      decide_eq_false_iff_not] at h
    exact Ty.isWritten_struct h.1 h.2
  | .connector _, h => Ty.isWritten_connector h
  | .map, _ | .message, _ | .xml, _ | .json, _ | .null, _ => by decide +kernel

end

namespace Ty

theorem isWritten_of_parse? {s : String} {ty : Ty} (h : parse? s = some ty) : ty.IsWritten :=
  isWritten_of_isWellFormed (isWellFormed_of_parse? h)

/-- **Type texts round trip.** Every type that is read from a text is well formed, and every
well-formed type, with arrays nested to any depth, is read back from its written form.

**Proof sketch.** The reader makes a struct or a connector only of an identifier, and a struct only
of one that is no reserved word. The other way round, induction on the type: an identifier has no
white space in it, so nothing is trimmed, none is taken for the text of a connector, and each array
puts exactly the brackets behind the text of its elements that the reader takes off first. -/
theorem parsing_inverts_text :
    (∀ (s : String) (ty : Ty), parse? s = some ty → ty.isWellFormed = true) ∧
      ∀ ty : Ty, ty.isWellFormed = true → parse? ty.text = some ty :=
  ⟨fun _ _ => isWellFormed_of_parse?, fun _ => isWritten_of_isWellFormed⟩

/-- The reader takes white space off at every level, and the written form has none of it. -/
theorem parsing_inverts_text_spaced :
    parse? "  connector  mail.Out [] [ ]" = none ∧
      parse? "  connector  mail.Out [] []" = some (arrayOf (arrayOf (.ref (.connector "mail.Out")))) ∧
      (arrayOf (arrayOf (.ref (.connector "mail.Out")))).isWellFormed = true ∧
      parse? (arrayOf (arrayOf (.ref (.connector "mail.Out")))).text =
        some (arrayOf (arrayOf (.ref (.connector "mail.Out")))) := by
  have hparse : parse? "  connector  mail.Out [] []" =
      some (arrayOf (arrayOf (.ref (.connector "mail.Out")))) := by decide +kernel
  have hwell := parsing_inverts_text.1 _ _ hparse
  exact ⟨by decide +kernel, hparse, hwell, parsing_inverts_text.2 _ hwell⟩

end Ty

end FrameScript
