import FrameScript.Proofs.Occurrences

set_option autoImplicit false

/-!
# Layout and scopes

The layout walks through a body with the bindings in sight. Here that walk is compared with the
text: a name at some place means the newest definition of this name in front of the place that is in
the same block or in a block around it. Definitions get slots in the order of the text.

## Main definitions

* `Occurrence.slotBehind` — the slot a place should have, by what is in front of it.
* `Occurrence.AllSettled` — places that have these slots.
* `Scope.Follows` — a scope that fits what is in front of a place.
* `repeats`, `strays` — parameters with the name of an earlier one, and mentions that nothing binds.

## Main results

* `Stmt.settled_layout` — laying out gives the places of a statement their slots.
* `nameErrors_eq` — what is wrong with the names of a function, by the text.
* `layout_scopes` — which bodies are laid out, what is wrong with others, and what the slots are.
-/

namespace FrameScript

/-! ## Slots by the text -/

namespace Occurrence

/-- The slot of a place behind others: definitions are numbered, and other places have the slot of
the newest definition that binds them. -/
def slotBehind (front : List Occurrence) (o : Occurrence) : Option Nat :=
  match o.ty? with
  | some _ => some (front.countP (·.ty?.isSome))
  | none => (front.reverse.find? (·.Binds o)).bind (·.slot?)

/-- The place has its slot, and the newest definition that binds it is in the innermost block. -/
structure Settled (front : List Occurrence) (o : Occurrence) : Prop where
  slot : o.slot? = o.slotBehind front
  innermost : o.ty? = none → ∀ d, front.reverse.find? (·.Binds o) = some d →
    ∀ d' ∈ front, d'.Binds o → d'.block <+: d.block

/-- All places have their slots. -/
def AllSettled : List Occurrence → List Occurrence → Prop
  | _, [] => True
  | front, o :: os => o.Settled front ∧ AllSettled (front ++ [o]) os

theorem allSettled_append {front os os' : List Occurrence} :
    AllSettled front (os ++ os') ↔ AllSettled front os ∧ AllSettled (front ++ os) os' := by
  induction os generalizing front with
  | nil => simp [AllSettled]
  | cons o os ih => simp [AllSettled, ih, and_assoc]

theorem AllSettled.settled {front older newer : List Occurrence} {o : Occurrence}
    (h : AllSettled front (older ++ o :: newer)) : o.Settled (front ++ older) :=
  (allSettled_append.mp h).2.1

/-- The definition is in sight in a block. -/
def InSight (block : List Nat) (d : Occurrence) : Prop :=
  d.ty?.isSome ∧ d.block <+: block

instance (block : List Nat) (d : Occurrence) : Decidable (d.InSight block) :=
  inferInstanceAs (Decidable (_ ∧ _))

end Occurrence

open Occurrence

/-- The scope fits what is in front of a place: of a block with `i` blocks in front of the place.
The bindings are the definitions in sight, and the next slot is behind those of all definitions. -/
structure Scope.Follows (scope : Scope) (block : List Nat) (i : Nat) (front : List Occurrence) :
    Prop where
  bindings : scope.bindings.map (fun entry => (entry.1, some entry.2)) =
    (front.filter (·.InSight block)).reverse.map fun d => (d.name, d.slot?)
  next : scope.next = front.countP (·.ty?.isSome)
  nested : (front.filter (·.InSight block)).Pairwise fun d d' => d.block <+: d'.block
  fresh : ∀ o ∈ front, ∀ j, i ≤ j → ¬ block ++ [j] <+: o.block

theorem not_append_singleton_prefix {block : List Nat} {j : Nat} : ¬ block ++ [j] <+: block :=
  fun hprefix => by
    have hlength := hprefix.length_le
    rw [List.length_append, List.length_singleton] at hlength
    omega

namespace Scope.Follows

variable {scope : Scope} {block : List Nat} {i : Nat} {front : List Occurrence}

/-- What binds a name in a block is in sight there. -/
theorem find?_binds {o : Occurrence} (hblock : o.block = block) :
    front.reverse.find? (·.Binds o) =
      (front.filter (·.InSight block)).reverse.find? (·.name == o.name) := by
  rw [← List.filter_reverse, List.find?_filter]
  congr 1
  funext d
  rw [decide_eq_decide, decide_eq_true_eq, beq_iff_eq]
  simp only [Binds, InSight, hblock]
  exact ⟨fun ⟨hdef, hname, hin⟩ => ⟨⟨hdef, hin⟩, hname⟩,
    fun ⟨⟨hdef, hin⟩, hname⟩ => ⟨hdef, hname, hin⟩⟩

/-- What a name means is the newest definition that binds it. -/
theorem slotBehind_mention (h : scope.Follows block i front) {o : Occurrence}
    (hblock : o.block = block) (hmention : o.ty? = none) :
    o.slotBehind front = scope.slot? o.name := by
  have hfind := congrArg (fun l => (l.find? (·.1 == o.name)).bind (·.2)) h.bindings
  simp only [List.find?_map, Function.comp_def] at hfind
  rw [slotBehind, hmention, find?_binds hblock, Scope.slot?]
  cases hscope : scope.bindings.find? (·.1 == o.name) <;>
    cases hfront : (front.filter (·.InSight block)).reverse.find? (·.name == o.name) <;>
    simp_all

theorem settled_mention (h : scope.Follows block i front) (name : String) :
    Settled front { block, name, slot? := scope.slot? name } where
  slot := (h.slotBehind_mention (o := { block, name, slot? := scope.slot? name }) rfl rfl).symm
  innermost _ d hd d' hmem hbinds := by
    rw [find?_binds rfl, List.find?_eq_some_iff_append] at hd
    obtain ⟨-, newer, older, hsplit, hnewer⟩ := hd
    have hfilter : front.filter (·.InSight block) = older.reverse ++ d :: newer.reverse := by
      simpa using congrArg List.reverse hsplit
    have hmem' : d' ∈ front.filter (·.InSight block) :=
      List.mem_filter.mpr ⟨hmem, decide_eq_true ⟨hbinds.1, hbinds.2.2⟩⟩
    have hnested := h.nested
    rw [hfilter] at hmem' hnested
    rcases List.mem_append.mp hmem' with holder | hrest
    · exact (List.pairwise_append.mp hnested).2.2 d' holder d List.mem_cons_self
    · rcases List.mem_cons.mp hrest with rfl | hnew
      · exact List.prefix_refl _
      · have hname := hnewer d' (List.mem_reverse.mp hnew)
        simp [hbinds.2.1] at hname

theorem settled_definition (h : scope.Follows block i front) (name : String) (ty : Ty) :
    Settled front { block, name, ty? := ty, slot? := scope.next } where
  slot := by rw [slotBehind, h.next]
  innermost hmention := by cases hmention

/-! ### Steps of the walk -/

/-- Mentions of variables leave the scope as it is. -/
theorem mention (h : scope.Follows block i front) (name : String) (slot? : Option Nat) :
    scope.Follows block i (front ++ [{ block, name, slot? := slot? }]) where
  bindings := by simpa [InSight] using h.bindings
  next := by simpa using h.next
  nested := by simpa [InSight] using h.nested
  fresh o ho j hj := by
    rcases List.mem_append.mp ho with ho | ho
    · exact h.fresh o ho j hj
    · cases List.mem_singleton.mp ho
      exact not_append_singleton_prefix

/-- A definition is a new binding, with the next slot. -/
theorem define (h : scope.Follows block i front) (name : String) (ty : Ty) :
    (scope.define name).Follows block i
      (front ++ [{ block, name, ty? := ty, slot? := scope.next }]) where
  bindings := by
    simpa [InSight, Scope.define, List.filter_append] using h.bindings
  next := by simpa [Scope.define] using h.next
  nested := by
    rw [List.filter_append, List.pairwise_append]
    refine ⟨h.nested, List.Pairwise.filter _ (List.pairwise_singleton _ _), fun d hd d' hd' => ?_⟩
    cases List.mem_singleton.mp (List.mem_filter.mp hd').1
    exact (of_decide_eq_true (List.mem_filter.mp hd).2).2
  fresh o ho j hj := by
    rcases List.mem_append.mp ho with ho | ho
    · exact h.fresh o ho j hj
    · cases List.mem_singleton.mp ho
      exact not_append_singleton_prefix

/-- At the start of an inner block the same definitions are in sight as in front of it. -/
theorem filter_enter (h : scope.Follows block i front) :
    front.filter (·.InSight (block ++ [i])) = front.filter (·.InSight block) := by
  refine List.filter_congr fun d hd => ?_
  rw [decide_eq_decide]
  simp only [InSight, List.prefix_concat_iff]
  refine and_congr_right fun _ => ⟨fun hprefix => ?_, .inr⟩
  rcases hprefix with heq | hprefix
  · exact absurd (heq ▸ List.prefix_refl _) (h.fresh d hd i (Nat.le_refl i))
  · exact hprefix

theorem enter (h : scope.Follows block i front) : scope.Follows (block ++ [i]) 0 front where
  bindings := by rw [h.filter_enter, h.bindings]
  next := h.next
  nested := by rw [h.filter_enter]; exact h.nested
  fresh o ho j _ hprefix :=
    h.fresh o ho i (Nat.le_refl i) ((List.prefix_append _ _).trans hprefix)

/-- Behind an inner block the same definitions are in sight as in front of it. -/
theorem filter_leave {inner : List Occurrence} (hinner : ∀ o ∈ inner, block ++ [i] <+: o.block) :
    (front ++ inner).filter (·.InSight block) = front.filter (·.InSight block) := by
  have hnone : inner.filter (·.InSight block) = [] := List.filter_eq_nil_iff.mpr fun o ho hsight =>
    not_append_singleton_prefix ((hinner o ho).trans (of_decide_eq_true hsight).2)
  rw [List.filter_append, hnone, List.append_nil]

/-- Behind an inner block the bindings are those from before it, and its slots stay taken. -/
theorem leave (h : scope.Follows block i front) {inner : List Occurrence}
    (hinner : ∀ o ∈ inner, block ++ [i] <+: o.block) :
    (scope.skip (inner.countP (·.ty?.isSome))).Follows block (i + 1) (front ++ inner) where
  bindings := by rw [filter_leave hinner]; exact h.bindings
  next := by simp [Scope.skip, h.next]
  nested := by rw [filter_leave hinner]; exact h.nested
  fresh o ho j hj hprefix := by
    rcases List.mem_append.mp ho with ho | ho
    · exact h.fresh o ho j (by omega) hprefix
    · have heq := (List.prefix_of_prefix_length_le (hinner o ho) hprefix (by simp)).eq_of_length
        (by simp)
      simp at heq
      omega

/-- Mentions whose slots are those of the scope are settled, and the scope stays as it is. -/
theorem mentionsAt (h : scope.Follows block i front) {refs : List Reference}
    (hrefs : ∀ m ∈ mentions refs, m.2 = scope.slot? m.1) :
    AllSettled front (mentionsAt block refs) ∧
      scope.Follows block i (front ++ FrameScript.mentionsAt block refs) := by
  unfold FrameScript.mentionsAt
  generalize mentions refs = ms at hrefs
  induction ms generalizing front with
  | nil => exact ⟨trivial, by simpa using h⟩
  | cons m ms ih =>
    obtain ⟨hm, hms⟩ := List.forall_mem_cons.mp hrefs
    obtain ⟨hsettled, hfollows⟩ := ih (h.mention m.1 m.2) hms
    rw [List.append_assoc] at hfollows
    refine ⟨⟨?_, hsettled⟩, hfollows⟩
    dsimp only
    rw [hm]
    exact h.settled_mention m.1

end Scope.Follows

/-! ## Occurrences in blocks -/

theorem eq_of_mem_mentionsAt {block : List Nat} {refs : List Reference} {o : Occurrence}
    (h : o ∈ mentionsAt block refs) : o.block = block ∧ o.ty? = none := by
  obtain ⟨m, -, rfl⟩ := List.mem_map.mp h
  exact ⟨rfl, rfl⟩

theorem prefix_of_mem_mentionsAt {block : List Nat} {refs : List Reference} :
    ∀ o ∈ mentionsAt block refs, block <+: o.block :=
  fun _ ho => (eq_of_mem_mentionsAt ho).1 ▸ List.prefix_refl _

theorem prefix_of_inner {block : List Nat} {n : Nat} {inner : List Occurrence}
    (h : ∀ o ∈ inner, block ++ [n] <+: o.block) : ∀ o ∈ inner, block <+: o.block :=
  fun o ho => (List.prefix_append _ _).trans (h o ho)

@[simp]
theorem filterMap_mentionsAt (block : List Nat) (refs : List Reference) :
    (mentionsAt block refs).filterMap (·.ty?) = [] :=
  List.filterMap_eq_nil_iff.mpr fun _ ho => (eq_of_mem_mentionsAt ho).2

mutual

/-- The occurrences in a statement of a block are in that block or in blocks inside of it. -/
theorem Stmt.prefix_of_mem_occurrences (s : Stmt) (block : List Nat) (i : Nat) :
    ∀ o ∈ s.occurrences block i, block <+: o.block := by
  cases s with
  | define name ty init? slot? =>
    simp only [Stmt.occurrences, List.forall_mem_append, List.forall_mem_singleton]
    refine ⟨?_, List.prefix_refl _⟩
    cases init? with
    | none => exact fun o ho => nomatch ho
    | some init => exact prefix_of_mem_mentionsAt
  | assign targets value => exact prefix_of_mem_mentionsAt
  | branch cond yes no =>
    simp only [Stmt.occurrences, List.forall_mem_append]
    exact ⟨prefix_of_mem_mentionsAt, prefix_of_inner (prefix_of_mem_occurrencesIn yes _ 0),
      prefix_of_inner (prefix_of_mem_occurrencesIn no _ 0)⟩
  | loop cond body =>
    simp only [Stmt.occurrences, List.forall_mem_append]
    exact ⟨prefix_of_mem_mentionsAt, prefix_of_inner (prefix_of_mem_occurrencesIn body _ 0)⟩
  | leave | next => exact fun o ho => nomatch ho
  | result values => exact prefix_of_mem_mentionsAt
  | run e => exact prefix_of_mem_mentionsAt
  | block body => exact prefix_of_inner (prefix_of_mem_occurrencesIn body _ 0)

theorem prefix_of_mem_occurrencesIn (ss : List Stmt) (block : List Nat) (i : Nat) :
    ∀ o ∈ occurrencesIn block i ss, block <+: o.block := by
  cases ss with
  | nil => exact fun o ho => nomatch ho
  | cons s ss =>
    simp only [occurrencesIn, List.forall_mem_append]
    exact ⟨s.prefix_of_mem_occurrences block i, prefix_of_mem_occurrencesIn ss block _⟩

end

mutual

/-- The definitions among the occurrences are those of the text. -/
theorem Stmt.filterMap_occurrences (s : Stmt) (block : List Nat) (i : Nat) :
    (s.occurrences block i).filterMap (·.ty?) = s.definedTypes := by
  cases s with
  | define name ty init? slot? => cases init? <;> simp [Stmt.occurrences, Stmt.definedTypes]
  | assign targets value => exact filterMap_mentionsAt _ _
  | branch cond yes no =>
    simp only [Stmt.occurrences, Stmt.definedTypes, List.filterMap_append, filterMap_mentionsAt,
      filterMap_occurrencesIn, List.nil_append]
  | loop cond body =>
    simp only [Stmt.occurrences, Stmt.definedTypes, List.filterMap_append, filterMap_mentionsAt,
      filterMap_occurrencesIn, List.nil_append]
  | leave | next => rfl
  | result values => exact filterMap_mentionsAt _ _
  | run e => exact filterMap_mentionsAt _ _
  | block body => exact filterMap_occurrencesIn body _ 0

theorem filterMap_occurrencesIn (ss : List Stmt) (block : List Nat) (i : Nat) :
    (occurrencesIn block i ss).filterMap (·.ty?) = definedTypesIn ss := by
  cases ss with
  | nil => rfl
  | cons s ss =>
    simp only [occurrencesIn, definedTypesIn, List.filterMap_append, s.filterMap_occurrences,
      filterMap_occurrencesIn ss]

end

/-- Laying out a block takes as many slots as there are definitions in it. -/
theorem countP_occurrencesIn_layout (ss : List Stmt) (scope : Scope) (block : List Nat) (i : Nat) :
    (occurrencesIn block i (layoutBlock scope ss)).countP (·.ty?.isSome) =
      (definedTypesIn ss).length := by
  rw [← List.length_filterMap_eq_countP, filterMap_occurrencesIn, definedTypesIn_layoutBlock]

/-! ## The walk -/

variable {scope : Scope} {block : List Nat} {i : Nat} {front : List Occurrence}

theorem Scope.skip_skip (scope : Scope) (n m : Nat) :
    (scope.skip n).skip m = scope.skip (n + m) := by
  rw [skip, skip, skip, Nat.add_assoc]

theorem Stmt.blocks_layout (s : Stmt) (scope : Scope) : (s.layout scope).blocks = s.blocks := by
  cases s <;> rfl

/-- Mentions that are laid out have the slots of the scope. -/
theorem slot_of_mem_mentions {refs refs' : List Reference}
    (h : mentions refs = (mentions refs').map fun m => (m.1, scope.slot? m.1)) :
    ∀ m ∈ mentions refs, m.2 = scope.slot? m.1 := by
  rw [h, List.forall_mem_map]
  exact fun _ _ => rfl

theorem mentions_layoutAssign (targets : List Target) (value : Expr) :
    mentions ((value.layout scope.slot? 0).references ++
        (targets.map (·.layout scope.slot?)).flatMap Target.references) =
      (mentions (value.references ++ targets.flatMap Target.references)).map
        fun m => (m.1, scope.slot? m.1) := by
  rw [mentions_append, value.mentions_layout 0, mentions_layoutTargets, mentions_append,
    List.map_append]

theorem mentions_layoutResult (values : List Expr) :
    mentions (referencesIn (values.map (·.layout scope.slot? 0))) =
      (mentions (referencesIn values)).map fun m => (m.1, scope.slot? m.1) := by
  rw [← layoutEach_eq_map, mentions_layoutEach]

/-- A laid out block inside another is settled, and behind it the scope is the one from before it
with the slots of the block taken. -/
theorem settled_inner {ss : List Stmt} (h : scope.Follows block i front)
    (hsettled : AllSettled front (occurrencesIn (block ++ [i]) 0 (layoutBlock scope ss))) :
    AllSettled front (occurrencesIn (block ++ [i]) 0 (layoutBlock scope ss)) ∧
      (scope.skip (definedTypesIn ss).length).Follows block (i + 1)
        (front ++ occurrencesIn (block ++ [i]) 0 (layoutBlock scope ss)) := by
  refine ⟨hsettled, ?_⟩
  rw [← countP_occurrencesIn_layout ss scope (block ++ [i]) 0]
  exact h.leave (prefix_of_mem_occurrencesIn _ _ _)

mutual

/-- Laying out a statement settles its places, and the scope follows them. -/
theorem Stmt.settled_layout (s : Stmt) {scope : Scope} {block : List Nat} {i : Nat}
    {front : List Occurrence} (h : scope.Follows block i front) :
    AllSettled front ((s.layout scope).occurrences block i) ∧
      (s.scopeAfter scope).Follows block (i + s.blocks)
        (front ++ (s.layout scope).occurrences block i) := by
  cases s with
  | define name ty init? slot? =>
    cases init? with
    | none => exact ⟨⟨h.settled_definition name ty, trivial⟩, h.define name ty⟩
    | some init =>
      obtain ⟨hsettled, hfollows⟩ := h.mentionsAt (slot_of_mem_mentions (init.mentions_layout 0))
      refine ⟨allSettled_append.mpr ⟨hsettled, hfollows.settled_definition name ty, trivial⟩, ?_⟩
      have hdefine := hfollows.define name ty
      rw [List.append_assoc] at hdefine
      exact hdefine
  | assign targets value =>
    exact h.mentionsAt (slot_of_mem_mentions (mentions_layoutAssign targets value))
  | branch cond yes no =>
    obtain ⟨hcond, hfollows⟩ := h.mentionsAt (slot_of_mem_mentions (cond.mentions_layout 0))
    obtain ⟨hyes, hfollows⟩ := settled_inner hfollows (settled_layoutBlock yes hfollows.enter)
    obtain ⟨hno, hfollows⟩ := settled_inner hfollows (settled_layoutBlock no hfollows.enter)
    refine ⟨?_, ?_⟩
    · exact allSettled_append.mpr ⟨hcond, allSettled_append.mpr ⟨hyes, hno⟩⟩
    · rw [Scope.skip_skip, ← List.length_append, List.append_assoc, List.append_assoc] at hfollows
      exact hfollows
  | loop cond body =>
    obtain ⟨hcond, hfollows⟩ := h.mentionsAt (slot_of_mem_mentions (cond.mentions_layout 0))
    obtain ⟨hbody, hfollows⟩ := settled_inner hfollows (settled_layoutBlock body hfollows.enter)
    refine ⟨allSettled_append.mpr ⟨hcond, hbody⟩, ?_⟩
    rw [Stmt.layout, Stmt.occurrences, ← List.append_assoc]
    exact hfollows
  | leave | next =>
    refine ⟨trivial, ?_⟩
    rw [← List.append_nil front] at h
    exact h
  | result values => exact h.mentionsAt (slot_of_mem_mentions (mentions_layoutResult values))
  | run e => exact h.mentionsAt (slot_of_mem_mentions (e.mentions_layout 0))
  | block body => exact settled_inner h (settled_layoutBlock body h.enter)

theorem settled_layoutBlock (ss : List Stmt) {scope : Scope} {block : List Nat} {i : Nat}
    {front : List Occurrence} (h : scope.Follows block i front) :
    AllSettled front (occurrencesIn block i (layoutBlock scope ss)) := by
  cases ss with
  | nil => trivial
  | cons s ss =>
    obtain ⟨hsettled, hfollows⟩ := s.settled_layout h
    rw [layoutBlock, occurrencesIn, allSettled_append, s.blocks_layout]
    exact ⟨hsettled, settled_layoutBlock ss hfollows⟩

end

/-! ## Names that mean nothing -/

/-- The names at places without a slot. -/
def slotless (os : List Occurrence) : List String :=
  (os.filter (·.slot?.isNone)).map (·.name)

@[simp]
theorem slotless_append (os os' : List Occurrence) :
    slotless (os ++ os') = slotless os ++ slotless os' := by
  simp [slotless]

theorem slotless_mentionsAt {refs refs' : List Reference}
    (h : mentions refs = (mentions refs').map fun m => (m.1, scope.slot? m.1)) :
    slotless (mentionsAt block refs) = unmeant scope.slot? refs' := by
  simp [slotless, mentionsAt, h, unmeant, List.filter_map, Function.comp_def]

mutual

/-- The layout complains of the names that get no slot. -/
theorem Stmt.slotless_layout (s : Stmt) (scope : Scope) (block : List Nat) (i : Nat) :
    slotless ((s.layout scope).occurrences block i) = s.unbound scope := by
  cases s with
  | define name ty init? slot? =>
    cases init? with
    | none => rfl
    | some init =>
      simp only [Stmt.layout, Stmt.occurrences, Stmt.unbound, Option.map_some, slotless_append,
        slotless_mentionsAt (init.mentions_layout 0), init.unbound_eq]
      exact List.append_nil _
  | assign targets value =>
    rw [Stmt.unbound, value.unbound_eq, unboundInTargets_eq, ← unmeant_append]
    exact slotless_mentionsAt (mentions_layoutAssign targets value)
  | branch cond yes no =>
    simp only [Stmt.layout, Stmt.occurrences, Stmt.unbound, slotless_append,
      slotless_mentionsAt (cond.mentions_layout 0), cond.unbound_eq, slotless_layoutBlock]
  | loop cond body =>
    simp only [Stmt.layout, Stmt.occurrences, Stmt.unbound, slotless_append,
      slotless_mentionsAt (cond.mentions_layout 0), cond.unbound_eq, slotless_layoutBlock]
  | leave | next => rfl
  | result values =>
    rw [Stmt.unbound, ← unboundIn_eq_flatMap, unboundIn_eq]
    exact slotless_mentionsAt (mentions_layoutResult values)
  | run e =>
    rw [Stmt.unbound, e.unbound_eq]
    exact slotless_mentionsAt (e.mentions_layout 0)
  | block body => exact slotless_layoutBlock body scope _ 0

theorem slotless_layoutBlock (ss : List Stmt) (scope : Scope) (block : List Nat) (i : Nat) :
    slotless (occurrencesIn block i (layoutBlock scope ss)) = unboundInBlock scope ss := by
  cases ss with
  | nil => rfl
  | cons s ss =>
    simp only [layoutBlock, occurrencesIn, unboundInBlock, slotless_append, s.slotless_layout,
      slotless_layoutBlock ss]

end

/-! ## Places before and after -/

theorem unplaced_mentionsAt {refs refs' : List Reference}
    (h : mentions refs = (mentions refs').map fun m => (m.1, scope.slot? m.1)) :
    (mentionsAt block refs).map unplaced = (mentionsAt block refs').map unplaced := by
  simp [mentionsAt, h, unplaced, Function.comp_def]

mutual

/-- Laying out a statement changes nothing of its places but the slots. -/
theorem Stmt.unplaced_occurrences (s : Stmt) (scope : Scope) (block : List Nat) (i : Nat) :
    ((s.layout scope).occurrences block i).map unplaced =
      (s.occurrences block i).map unplaced := by
  cases s with
  | define name ty init? slot? =>
    cases init? with
    | none => rfl
    | some init =>
      simp only [Stmt.layout, Stmt.occurrences, Option.map_some, List.map_append,
        unplaced_mentionsAt (init.mentions_layout 0)]
      rfl
  | assign targets value => exact unplaced_mentionsAt (mentions_layoutAssign targets value)
  | branch cond yes no =>
    simp only [Stmt.layout, Stmt.occurrences, List.map_append,
      unplaced_mentionsAt (cond.mentions_layout 0), unplaced_occurrencesIn]
  | loop cond body =>
    simp only [Stmt.layout, Stmt.occurrences, List.map_append,
      unplaced_mentionsAt (cond.mentions_layout 0), unplaced_occurrencesIn]
  | leave | next => rfl
  | result values => exact unplaced_mentionsAt (mentions_layoutResult values)
  | run e => exact unplaced_mentionsAt (e.mentions_layout 0)
  | block body => exact unplaced_occurrencesIn body scope _ 0

theorem unplaced_occurrencesIn (ss : List Stmt) (scope : Scope) (block : List Nat) (i : Nat) :
    (occurrencesIn block i (layoutBlock scope ss)).map unplaced =
      (occurrencesIn block i ss).map unplaced := by
  cases ss with
  | nil => rfl
  | cons s ss =>
    simp only [layoutBlock, occurrencesIn, List.map_append, s.blocks_layout,
      s.unplaced_occurrences, unplaced_occurrencesIn ss]

end

/-! ## Whole functions -/

/-- The parameters of a function and the places in its body. -/
def allOccurrences (params : List Param) (body : List Stmt) : List Occurrence :=
  paramOccurrences params ++ occurrencesIn [] 0 body

/-- Parameters are settled behind others, and bound one after the other. -/
theorem settled_zipIdx (params : List Param) {scope : Scope} {front : List Occurrence} {n : Nat}
    (h : scope.Follows [] 0 front) (hn : scope.next = n) :
    AllSettled front ((params.zipIdx n).map fun (p, i) =>
        { block := [], name := p.name, ty? := p.ty, slot? := i }) ∧
      (params.foldl (fun scope p => scope.define p.name) scope).Follows [] 0
        (front ++ (params.zipIdx n).map fun (p, i) =>
          { block := [], name := p.name, ty? := p.ty, slot? := i }) := by
  induction params generalizing scope front n with
  | nil => exact ⟨trivial, by simpa using h⟩
  | cons p params ih =>
    subst hn
    obtain ⟨hsettled, hfollows⟩ := ih (h.define p.name p.ty) rfl
    rw [List.append_assoc] at hfollows
    exact ⟨⟨h.settled_definition p.name p.ty, hsettled⟩, hfollows⟩

/-- Laying out a function settles all its places. -/
theorem settled_allOccurrences (params : List Param) (body : List Stmt) :
    AllSettled [] (allOccurrences params (layoutBlock (Scope.ofParams params) body)) := by
  have hempty : ({} : Scope).Follows [] 0 [] :=
    ⟨rfl, rfl, .nil, fun o ho => nomatch ho⟩
  obtain ⟨hparams, hfollows⟩ := settled_zipIdx params hempty rfl
  exact allSettled_append.mpr ⟨hparams, settled_layoutBlock body hfollows⟩

/-- The items of a list that pass a test together with the items in front of them. -/
def passing {α : Type} (test : List α → α → Bool) (front : List α) : List α → List α
  | [] => []
  | a :: as =>
    if test front a then a :: passing test (front ++ [a]) as else passing test (front ++ [a]) as

section Passing

variable {α β : Type} {test : List α → α → Bool}

theorem passing_eq_nil_iff {items front : List α} :
    passing test front items = [] ↔
      ∀ older a newer, items = older ++ a :: newer → test (front ++ older) a = false := by
  induction items generalizing front with
  | nil => simp [passing]
  | cons first items ih =>
    rw [passing]
    constructor
    · intro h older a newer hsplit
      split at h
      · cases h
      next hfirst =>
        cases older with
        | nil =>
          cases hsplit
          simpa using hfirst
        | cons b older =>
          cases hsplit
          simpa using ih.mp h older a newer rfl
    · intro h
      rw [if_neg (by simpa using h [] first items rfl), ih]
      intro older a newer hsplit
      simpa using h (first :: older) a newer (by rw [hsplit]; rfl)

/-- A test that does not look at something passes the same items without it. -/
theorem passing_map {f : α → α} (htest : ∀ front a, test (front.map f) (f a) = test front a)
    {items : List α} (front : List α) :
    passing test (front.map f) (items.map f) = (passing test front items).map f := by
  induction items generalizing front with
  | nil => rfl
  | cons a items ih =>
    have hnext := ih (front ++ [a])
    rw [List.map_append, List.map_singleton] at hnext
    simp only [List.map_cons, passing, htest, hnext]
    split <;> rfl

end Passing

/-- The parameters with the name of an earlier one. -/
def repeats (params : List Param) : List Param :=
  passing (fun front p => front.any (·.name == p.name)) [] params

/-- The mentions that no definition in front of them binds. -/
def strays (os : List Occurrence) : List Occurrence :=
  passing (fun front o => o.ty?.isNone && !front.any (·.Binds o)) [] os

theorem repeatedParams_eq (params : List Param) {seen : List String} {front : List Param}
    (h : ∀ name, name ∈ seen ↔ name ∈ front.map (·.name)) :
    repeatedParams seen params =
      (passing (fun front p => front.any (·.name == p.name)) front params).map (·.name) := by
  induction params generalizing seen front with
  | nil => rfl
  | cons p params ih =>
    have hseen : seen.contains p.name = front.any (·.name == p.name) := by
      rw [Bool.eq_iff_iff, List.contains_iff_mem, h]
      simp
    rw [repeatedParams, passing, hseen]
    split
    next hold =>
      have hmem : p.name ∈ front.map (·.name) := by simpa using hold
      rw [List.map_cons, ih fun name => ?_]
      rw [h name, List.map_append, List.mem_append, List.map_singleton, List.mem_singleton]
      exact ⟨.inl, fun hor => hor.elim id fun heq => heq ▸ hmem⟩
    · rw [ih fun name => ?_]
      rw [List.mem_cons, h name, List.map_append, List.mem_append, List.map_singleton,
        List.mem_singleton, or_comm]

/-- The layout complains of the parameters with the name of an earlier one. -/
theorem map_name_repeats (params : List Param) :
    (repeats params).map (·.name) = repeatedParams [] params :=
  (repeatedParams_eq params fun _ => .rfl).symm

/-- No parameter is a repetition exactly if the names of all are distinct. -/
theorem repeats_eq_nil_iff (params : List Param) :
    repeats params = [] ↔ (params.map (·.name)).Nodup := by
  rw [← List.map_eq_nil_iff, map_name_repeats, repeatedParams_eq_nil_iff]
  simp

/-- Settled definitions have slots. -/
theorem Occurrence.Settled.isSome_slot? {front : List Occurrence} {o : Occurrence}
    (h : o.Settled front) (hdef : o.ty?.isSome) : o.slot?.isSome := by
  obtain ⟨ty, hty⟩ := Option.isSome_iff_exists.mp hdef
  rw [h.slot, slotBehind, hty]
  rfl

/-- A settled mention has no slot exactly if nothing binds it. -/
theorem Occurrence.Settled.isNone_slot? {front : List Occurrence} {o : Occurrence}
    (h : o.Settled front) (hmention : o.ty? = none)
    (hfront : ∀ d ∈ front, d.ty?.isSome → d.slot?.isSome) :
    o.slot?.isNone = !front.any (·.Binds o) := by
  rw [h.slot, slotBehind, hmention, ← List.any_reverse, ← List.isSome_find?]
  cases hd : front.reverse.find? (·.Binds o) with
  | none => rfl
  | some d =>
    have hbinds : d.Binds o := by simpa using List.find?_some hd
    have hslot := hfront d (List.mem_reverse.mp (List.mem_of_find?_eq_some hd)) hbinds.1
    obtain ⟨slot, hslot⟩ := Option.isSome_iff_exists.mp hslot
    simp [hslot]

/-- Places without a slot are the mentions that no definition in front of them binds. -/
theorem slotless_eq {os front : List Occurrence} (hsettled : AllSettled front os)
    (hfront : ∀ d ∈ front, d.ty?.isSome → d.slot?.isSome) :
    slotless os =
      (passing (fun front o => o.ty?.isNone && !front.any (·.Binds o)) front os).map (·.name) := by
  induction os generalizing front with
  | nil => rfl
  | cons o os ih =>
    obtain ⟨ho, hsettled⟩ := hsettled
    have hrest := ih hsettled fun d hd hdef => by
      rcases List.mem_append.mp hd with hd | hd
      · exact hfront d hd hdef
      · cases List.mem_singleton.mp hd
        exact ho.isSome_slot? hdef
    have htest : o.slot?.isNone = (o.ty?.isNone && !front.any (·.Binds o)) := by
      cases hty : o.ty? with
      | none => simpa using ho.isNone_slot? hty hfront
      | some ty => simpa using ho.isSome_slot? (by rw [hty]; rfl)
    rw [slotless, List.filter_cons, passing, ← htest]
    split
    · rw [List.map_cons, List.map_cons, ← hrest]
      rfl
    · exact hrest

theorem slotless_paramOccurrences (params : List Param) :
    slotless (paramOccurrences params) = [] := by
  rw [slotless, List.map_eq_nil_iff, List.filter_eq_nil_iff, paramOccurrences, List.forall_mem_map]
  exact fun _ _ => nofun

/-- Definitions have the slots in the order of the text. -/
theorem map_slot?_definitions {os front : List Occurrence} (hsettled : AllSettled front os) :
    (os.filter (·.ty?.isSome)).map (·.slot?) =
      (List.range' (front.countP (·.ty?.isSome)) (os.countP (·.ty?.isSome))).map some := by
  induction os generalizing front with
  | nil => rfl
  | cons o os ih =>
    obtain ⟨ho, hsettled⟩ := hsettled
    have hrest := ih hsettled
    rw [List.countP_append, List.countP_singleton] at hrest
    rw [List.filter_cons, List.countP_cons]
    cases hty : o.ty? with
    | none => simpa [hty] using hrest
    | some ty =>
      have hslot := ho.slot
      rw [slotBehind, hty] at hslot
      simpa [hty, List.range'_succ, hslot] using hrest

/-- Laying out a function changes nothing of its places but the slots. -/
theorem unplaced_allOccurrences (params : List Param) (body : List Stmt) :
    (allOccurrences params (layoutBlock (Scope.ofParams params) body)).map unplaced =
      (allOccurrences params body).map unplaced := by
  rw [allOccurrences, allOccurrences, List.map_append, List.map_append, unplaced_occurrencesIn]

/-- Whether a mention is bound does not depend on slots. -/
theorem strays_unplaced (os : List Occurrence) :
    strays (os.map unplaced) = (strays os).map unplaced := by
  refine passing_map (fun front o => ?_) []
  rw [List.any_map]
  rfl

/-- The layout complains of the parameters with repeated names, and then of the mentions that are
bound by nothing. -/
theorem nameErrors_eq (params : List Param) (body : List Stmt) :
    nameErrors params body = (repeats params).map (.duplicateParam ·.name) ++
      (strays (allOccurrences params body)).map (.undefinedVariable ·.name) := by
  have hstrays : (strays (allOccurrences params body)).map (·.name) =
      unboundInBlock (Scope.ofParams params) body := by
    have hnames (os : List Occurrence) : (strays os).map (·.name) =
        (strays (os.map unplaced)).map (·.name) := by
      rw [strays_unplaced, List.map_map]
      rfl
    rw [hnames, ← unplaced_allOccurrences, ← hnames, strays,
      ← slotless_eq (settled_allOccurrences params body) fun d hd => (nomatch hd),
      allOccurrences, slotless_append, slotless_layoutBlock, slotless_paramOccurrences]
    rfl
  rw [nameErrors, ← hstrays, ← map_name_repeats, List.map_map, List.map_map]
  rfl

/-- A body is laid out exactly if nothing is wrong with the names. -/
theorem layOut_eq_ok_iff {params : List Param} {body laid : List Stmt} {layout : Layout} :
    layOut params body = .ok (layout, laid) ↔ nameErrors params body = [] ∧
      layout = layoutOf params body ∧ laid = layoutBlock (Scope.ofParams params) body := by
  unfold layOut
  split
  next h => simp [h, eq_comm]
  next h => exact ⟨fun heq => (nomatch heq), fun hnames => absurd hnames.1 h⟩

/-- If nothing is wrong with the names every place gets a slot. -/
theorem isSome_slot?_of_nameErrors {params : List Param} {body : List Stmt}
    (h : nameErrors params body = []) :
    ∀ o ∈ allOccurrences params (layoutBlock (Scope.ofParams params) body), o.slot?.isSome := by
  have hunbound : unboundInBlock (Scope.ofParams params) body = [] := by
    rw [nameErrors, List.append_eq_nil_iff] at h
    exact List.map_eq_nil_iff.mp h.2
  have hslotless : slotless (allOccurrences params (layoutBlock (Scope.ofParams params) body)) =
      [] := by
    rw [allOccurrences, slotless_append, slotless_paramOccurrences, slotless_layoutBlock, hunbound]
    rfl
  rw [slotless, List.map_eq_nil_iff, List.filter_eq_nil_iff] at hslotless
  intro o ho
  simpa [Option.isSome_iff_ne_none] using hslotless o ho

/-- There are as many slots as definitions. -/
theorem countP_allOccurrences (params : List Param) (body : List Stmt) :
    (allOccurrences params (layoutBlock (Scope.ofParams params) body)).countP (·.ty?.isSome) =
      (layoutOf params body).slots.length := by
  have hparams : (paramOccurrences params).countP (·.ty?.isSome) = params.length := by
    simp [paramOccurrences, List.countP_map, Function.comp_def]
  rw [allOccurrences, List.countP_append, hparams, countP_occurrencesIn_layout, layoutOf,
    List.length_append, List.length_map]

/-- No mention is bound by nothing exactly if each has a definition in front of it. -/
theorem strays_eq_nil_iff {os : List Occurrence} :
    strays os = [] ↔ ∀ front o back, os = front ++ o :: back → o.ty? = none →
      ∃ d ∈ front, d.Binds o := by
  rw [strays, passing_eq_nil_iff]
  refine forall_congr' fun front => forall_congr' fun o => forall_congr' fun back =>
    imp_congr_right fun _ => ?_
  cases o.ty? <;> simp

/-- **Layout implements lexical scoping.** A function is laid out exactly if its parameters have
distinct names and each mention of a variable, read or assigned, has a definition in front of it
that binds it; otherwise each repeated parameter and each mention without a definition is an error.
Slots are those of the parameters and then those of the definitions, in the order of the text, and a
mention has the slot of the newest definition that binds it, which is in the innermost block. Apart
from slots and stages the body stays as it is. -/
theorem layout_scopes (params : List Param) (body : List Stmt) :
    ((∃ layout laid, layOut params body = .ok (layout, laid)) ↔
      (params.map (·.name)).Nodup ∧
      ∀ front o back, allOccurrences params body = front ++ o :: back → o.ty? = none →
        ∃ d ∈ front, d.Binds o) ∧
    (∀ errors, layOut params body = .error errors →
      errors = (repeats params).map (.duplicateParam ·.name) ++
        (strays (allOccurrences params body)).map (.undefinedVariable ·.name)) ∧
    ∀ layout laid, layOut params body = .ok (layout, laid) →
      layout.slots = params.map (·.ty) ++ (occurrencesIn [] 0 body).filterMap (·.ty?) ∧
      ((allOccurrences params laid).filter (·.ty?.isSome)).map (·.slot?) =
        (List.range layout.slots.length).map some ∧
      (∀ front o back, allOccurrences params laid = front ++ o :: back → o.ty? = none →
        ∃ d slot, front.reverse.find? (·.Binds o) = some d ∧ d.slot? = some slot ∧
          o.slot? = some slot ∧ ∀ d' ∈ front, d'.Binds o → d'.block <+: d.block) ∧
      unplacedBlock laid = unplacedBlock body := by
  refine ⟨?_, fun errors herrors => ?_, fun layout laid hlaid => ?_⟩
  · simp only [layOut_eq_ok_iff, nameErrors_eq, List.append_eq_nil_iff, List.map_eq_nil_iff,
      repeats_eq_nil_iff, strays_eq_nil_iff]
    constructor
    · rintro ⟨_, _, hnames, -⟩
      exact hnames
    · intro hnames
      exact ⟨_, _, hnames, rfl, rfl⟩
  · rw [← nameErrors_eq]
    unfold layOut at herrors
    split at herrors
    · cases herrors
    · cases herrors
      rfl
  · obtain ⟨hnames, rfl, rfl⟩ := layOut_eq_ok_iff.mp hlaid
    have hsettled := settled_allOccurrences params body
    refine ⟨?_, ?_, fun front o back hsplit hmention => ?_, unplaced_layoutBlock body _⟩
    · rw [layoutOf, filterMap_occurrencesIn]
    · rw [map_slot?_definitions hsettled, countP_allOccurrences, List.range_eq_range']
      rfl
    · have ho : o.slot?.isSome := isSome_slot?_of_nameErrors hnames o (by simp [hsplit])
      rw [hsplit] at hsettled
      have hplace := hsettled.settled
      rw [List.nil_append] at hplace
      obtain ⟨slot, hslot⟩ := Option.isSome_iff_exists.mp ho
      have hbehind := hplace.slot.symm.trans hslot
      rw [slotBehind, hmention] at hbehind
      obtain ⟨d, hd, hdslot⟩ := Option.bind_eq_some_iff.mp hbehind
      exact ⟨d, slot, hd, hdslot, hslot, hplace.innermost hmention d hd⟩

/-- A block in which a variable of the name of another one starts at the value of that. -/
def shadowingBody : List Stmt := [
  .define "x" .int none none,
  .block [
    .define "x" .string (some (.cast (.var ⟨"x", none⟩) .string)) none,
    .run (.var ⟨"x", none⟩)],
  .assign [.var ⟨"x", none⟩] (.var ⟨"n", none⟩)]

/-- Behind the block the name means the variable from before it again. -/
theorem layout_scopes_shadowing :
    ∃ layout laid, layOut [⟨"n", .int⟩] shadowingBody = .ok (layout, laid) ∧
      layout.slots = [.int, .int, .string] ∧
      ∃ front o d, allOccurrences [⟨"n", .int⟩] laid = front ++ [o] ∧ o.name = "x" ∧
        front.reverse.find? (·.Binds o) = some d ∧ d.block = [] ∧ o.slot? = some 1 := by
  obtain ⟨-, -, hlaid⟩ := layout_scopes [⟨"n", .int⟩] shadowingBody
  have hok : layOut [⟨"n", .int⟩] shadowingBody = .ok
      (layoutOf [⟨"n", .int⟩] shadowingBody,
        layoutBlock (Scope.ofParams [⟨"n", .int⟩]) shadowingBody) :=
    layOut_eq_ok_iff.mpr ⟨by decide, rfl, rfl⟩
  obtain ⟨hslots, -, hmentions, -⟩ := hlaid _ _ hok
  let places := allOccurrences [⟨"n", .int⟩]
    (layoutBlock (Scope.ofParams [⟨"n", .int⟩]) shadowingBody)
  obtain ⟨d, _, hd, _, _, _⟩ := hmentions (places.take 6)
    { block := [], name := "x", slot? := some 1 } [] (by decide) rfl
  have hbinds : d.Binds { block := [], name := "x", slot? := some 1 } := by
    simpa using List.find?_some hd
  exact ⟨_, _, hok, hslots.trans (by decide), _, _, d, by decide, rfl, hd,
    List.prefix_nil.mp hbinds.2.2, rfl⟩

end FrameScript
