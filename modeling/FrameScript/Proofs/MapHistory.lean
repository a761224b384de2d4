import FrameScript.Proofs.ByteOrder
import FrameScript.Proofs.Linking
import FrameScript.Proofs.Signatures

set_option autoImplicit false

/-!
# The history of a map

What a map holds is decided by what was done to it: the literal that made it, the values written
through any of its names, and the keys that were removed. A program can look at a map in four ways:
it can list the keys, ask for a key, read an element, and render the map. All four show the same
entries, those of the values last written for a key that was not removed since, nulls among them.

## Main definitions

* `MapEvent`, `MapEvent.lastWritten?` — what is done to a map, and what is left of it for a key.
* `MapHistory` — what was done to a map up to a state of a run.
* `Dict.Records` — entries in order that are what is left of some events.
* `Machine.ShowsMap` — all views of a map show what is left of some events.

## Main results

* `Dict.Records.insert`, `Dict.Records.erase`, `Dict.Records.ofList` — the steps.
* `MapHistory.records` — a map holds what is left of its history.
* `map_views_agree` — all views of a map show what is left of its history.

## Design

A history does not say what else happens in the run. Whatever leaves the map alone is one step of it,
so that the events are all that is known of the run, and the map may go by any number of names.
-/

namespace FrameScript

open Exec

/-! ## Events -/

/-- What may happen to the entries of a map. -/
inductive MapEvent
  /-- A value is written for a key. -/
  | write (key : String) (v : Value)
  /-- A key is removed. -/
  | remove (key : String)

namespace MapEvent

/-- The writes of entries in their order, the latest one first. -/
def ofEntries (entries : List (String × Value)) : List MapEvent :=
  entries.reverse.map fun entry => .write entry.1 entry.2

/-- The value last written for a key since it was last removed. The latest event is the first. -/
def lastWritten? (key : String) : List MapEvent → Option Value
  | [] => none
  | .write k v :: earlier => if k == key then some v else lastWritten? key earlier
  | .remove k :: earlier => if k == key then none else lastWritten? key earlier

end MapEvent

open MapEvent

/-! ## Entries -/

namespace Dict

/-- The entries are in order, and are what is left of the events. -/
structure Records (d : Dict Value) (events : List MapEvent) : Prop where
  sorted : d.Pairwise fun e e' => e.1 < e'.1
  find? : ∀ key, Dict.find? key d = lastWritten? key events

/-- Without a key, the other keys keep their values. Keys that were there twice would come back. -/
theorem find?_erase {α : Type} {d : Dict α} (hd : d.Pairwise fun e e' => e.1 < e'.1)
    (key other : String) :
    find? other (erase key d) = if key == other then none else find? other d := by
  induction d with
  | nil => simp [erase, find?]
  | cons entry d ih =>
    obtain ⟨k, v⟩ := entry
    obtain ⟨hfirst, hrest⟩ := List.pairwise_cons.mp hd
    rw [erase]
    split
    next heq =>
      obtain rfl : k = key := eq_of_beq heq
      rw [find?]
      split
      next hother =>
        -- the key is in front of all others, so it is not there a second time
        obtain rfl : k = other := eq_of_beq hother
        rw [← Option.not_isSome_iff_eq_none]
        intro hsome
        obtain ⟨entry, hentry, rfl⟩ := List.mem_map.mp (contains_eq_true_iff.mp hsome)
        exact String.lt_irrefl _ (hfirst entry hentry)
      · rfl
    next hne =>
      rw [find?, find?, ih hrest]
      split
      next hother =>
        obtain rfl : k = other := eq_of_beq hother
        rw [if_neg fun heq => hne (by rw [eq_of_beq heq, beq_self_eq_true])]
      · rfl

namespace Records

variable {d : Dict Value} {events : List MapEvent}

theorem nil : Records [] [] := ⟨.nil, fun _ => rfl⟩

theorem insert (h : d.Records events) (key : String) (v : Value) :
    Records (Dict.insert key v d) (.write key v :: events) where
  sorted := pairwise_insert h.sorted
  find? other := by rw [find?_insert, h.find?, lastWritten?]

theorem erase (h : d.Records events) (key : String) :
    Records (Dict.erase key d) (.remove key :: events) where
  sorted := h.sorted.sublist (erase_sublist key d)
  find? other := by rw [find?_erase h.sorted, h.find?, lastWritten?]

/-- Entries are written one after the other, the last of a key for good. -/
theorem foldl_insert (h : d.Records events) (entries : List (String × Value)) :
    Records (entries.foldl (fun d (key, v) => Dict.insert key v d) d) (ofEntries entries ++ events) := by
  induction entries generalizing d events with
  | nil => exact h
  | cons entry entries ih =>
    have hrest := ih (h.insert entry.1 entry.2)
    simpa [ofEntries] using hrest

theorem ofList (entries : List (String × Value)) :
    Records (Dict.ofList entries) (ofEntries entries) := by
  have hall := nil.foldl_insert entries
  rwa [List.append_nil] at hall

/-- A key is listed if a value is left for it. -/
theorem mem_keys_iff (h : d.Records events) (key : String) :
    key ∈ Dict.keys d ↔ (lastWritten? key events).isSome = true := by
  rw [← h.find?, Dict.keys, ← contains_eq_true_iff, contains]

end Records

end Dict

/-! ## Histories -/

/-- The history of a map up to a state of a run, by whatever names the map goes. The latest event is
the first. -/
inductive MapHistory (id : Nat) : List MapEvent → Machine → Prop
  /-- A literal makes the map and writes its entries in order. -/
  | literal {code : Code} {entries : List (String × Expr)} {vs : List (String × Value)}
    {m m₁ m' : Machine} (hvs : (evalEntries code entries).on m = (.ok vs, m₁))
    (hmap : ((Expr.map entries).eval code).on m = (.ok (.map id), m')) :
    MapHistory id (ofEntries vs) m'
  /-- An indexed write through any expression that gives the map. -/
  | write {code : Code} {base keyed : Expr} {key : String} {v : Value} {events : List MapEvent}
    {m m₁ m₂ m' : Machine} (hbase : (base.eval code).on m = (.ok (.map id), m₁))
    (hkeyed : (keyed.eval code).on m₁ = (.ok (.str key), m₂)) (h : MapHistory id events m₂)
    (hwrite : ((Target.index base keyed).write code v).on m = (.ok (), m')) :
    MapHistory id (.write key v :: events) m'
  /-- A call of `maps:remove`. -/
  | remove {unit : NativeUnit} {p : Program} {rounds levels : Nat} {key : String} {vs : List Value}
    {events : List MapEvent} {m m' : Machine}
    (hunit : Library.standard.get? "ballerina.lang.maps:remove" = some unit)
    (h : MapHistory id events m)
    (hcall : (call p rounds levels (.native unit) [.map id, .str key]).on m = (.ok vs, m')) :
    MapHistory id (.remove key :: events) m'
  /-- Whatever leaves the map alone. -/
  | elsewhere {events : List MapEvent} {m m' : Machine} (h : MapHistory id events m)
    (hsame : m'.heap.maps[id]? = m.heap.maps[id]?) : MapHistory id events m'

/-! ## Calls of the map units -/

namespace Library

/-- The unit that lists the keys. -/
def keysUnit : NativeUnit :=
  .function mapsName "keys" [⟨"m", .ref .map⟩] [.arrayOf .string] mapKeys

/-- The unit that asks for a key. -/
def hasKeyUnit : NativeUnit :=
  .function mapsName "hasKey" [⟨"m", .ref .map⟩, ⟨"key", .string⟩] [.boolean] mapHasKey

/-- The unit that removes a key. -/
def removeUnit : NativeUnit :=
  .function mapsName "remove" [⟨"m", .ref .map⟩, ⟨"key", .string⟩] [] mapRemove

theorem get?_keys : standard.get? "ballerina.lang.maps:keys" = some keysUnit :=
  get?_standard _

theorem get?_hasKey : standard.get? "ballerina.lang.maps:hasKey" = some hasKeyUnit :=
  get?_standard _

theorem get?_remove : standard.get? "ballerina.lang.maps:remove" = some removeUnit :=
  get?_standard _

section Calls

variable (p : Program) (rounds levels : Nat) {m : Machine}
  (hroom : m.context.depth < m.context.maxDepth) (id : Nat) (key : String)

include hroom

/-- The keys are listed in a new array. -/
theorem on_call_keys :
    (call p rounds (levels + 1) (.native keysUnit) [.map id]).on m =
      (.ok [(m.heap.newArray .string
          ((Dict.keys (m.heap.map id)).map Value.str).toArray).1],
        m.withHeap (m.heap.newArray .string
          ((Dict.keys (m.heap.map id)).map Value.str).toArray).2) := by
  obtain ⟨g, hprepare⟩ : ∃ g, prepare (.native keysUnit) [.map id] = .ok g := ⟨_, rfl⟩
  have hrun : mapKeys.on (m.withFrames (g :: m.context.frames)) = (.ok [(m.heap.newArray .string
      ((Dict.keys (m.heap.map id)).map Value.str).toArray).1],
        (m.withHeap (m.heap.newArray .string
          ((Dict.keys (m.heap.map id)).map Value.str).toArray).2).withFrames
            (g :: m.context.frames)) := by
    rw [mapKeys, on_bind_ok (on_mapArgument hprepare rfl rfl rfl)]
    rfl
  exact on_call_function hprepare hroom rfl rfl hrun (.cons ⟨rfl, rfl⟩ .nil) p rounds levels

theorem on_call_hasKey :
    (call p rounds (levels + 1) (.native hasKeyUnit) [.map id, .str key]).on m =
      (.ok [.bool (Dict.contains key (m.heap.map id))], m) := by
  obtain ⟨g, hprepare⟩ : ∃ g, prepare (.native hasKeyUnit) [.map id, .str key] = .ok g := ⟨_, rfl⟩
  have hrun : mapHasKey.on (m.withFrames (g :: m.context.frames)) =
      (.ok [.bool (Dict.contains key (m.heap.map id))],
        m.withFrames (g :: m.context.frames)) := by
    rw [mapHasKey, on_bind_ok (on_mapArgument hprepare rfl rfl rfl),
      on_bind_ok (on_stringArgument (i := 1) hprepare rfl rfl rfl)]
    rfl
  exact on_call_function hprepare hroom rfl rfl hrun (.cons ⟨rfl, rfl⟩ .nil) p rounds levels

theorem on_call_remove :
    (call p rounds (levels + 1) (.native removeUnit) [.map id, .str key]).on m =
      (.ok [], m.withHeap (m.heap.setMap id (Dict.erase key))) := by
  obtain ⟨g, hprepare⟩ : ∃ g, prepare (.native removeUnit) [.map id, .str key] = .ok g := ⟨_, rfl⟩
  have hrun : mapRemove.on (m.withFrames (g :: m.context.frames)) =
      (.ok [], (m.withHeap (m.heap.setMap id (Dict.erase key))).withFrames
        (g :: m.context.frames)) := by
    rw [mapRemove, on_bind_ok (on_mapArgument hprepare rfl rfl rfl),
      on_bind_ok (on_stringArgument (i := 1) hprepare rfl rfl rfl)]
    rfl
  exact on_call_function hprepare hroom rfl rfl hrun .nil p rounds levels

end Calls

end Library

/-! ## What a history leaves -/

/-- The map is there, with what is left of the events. -/
def Heap.MapRecords (h : Heap) (id : Nat) (events : List MapEvent) : Prop :=
  id < h.maps.size ∧ (h.map id).Records events

namespace Heap.MapRecords

variable {h h' : Heap} {id : Nat} {events : List MapEvent}

theorem newMap (h : Heap) (entries : List (String × Value)) :
    (h.newMap (Dict.ofList entries)).2.MapRecords h.maps.size (ofEntries entries) := by
  refine ⟨by simp [Heap.newMap], ?_⟩
  rw [map_newMap, if_pos rfl]
  exact Dict.Records.ofList entries

/-- A change of the map is one event more, if it is one for the entries. -/
theorem setMap (hmap : h.MapRecords id events) {change : Dict Value → Dict Value}
    {event : MapEvent} (hchange : (change (h.map id)).Records (event :: events)) :
    (h.setMap id change).MapRecords id (event :: events) := by
  refine ⟨by simpa [Heap.setMap] using hmap.1, ?_⟩
  rwa [map_setMap, if_pos ⟨rfl, hmap.1⟩]

theorem of_same (hmap : h.MapRecords id events) (hsame : h'.maps[id]? = h.maps[id]?) :
    h'.MapRecords id events := by
  constructor
  · rw [Array.getElem?_eq_getElem hmap.1] at hsame
    exact (Array.getElem?_eq_some_iff.mp hsame).1
  · rw [Heap.map, hsame]
    exact hmap.2

end Heap.MapRecords

/-- A map that is evaluated is new, and has the entries that were evaluated. -/
theorem eval_map {code : Code} {entries : List (String × Expr)} {vs : List (String × Value)}
    {m m₁ : Machine} (hvs : (evalEntries code entries).on m = (.ok vs, m₁)) :
    ((Expr.map entries).eval code).on m = (.ok (.map m₁.heap.maps.size),
      m₁.withHeap (m₁.heap.newMap (Dict.ofList vs)).2) := by
  rw [Expr.eval, on_bind_ok hvs, on_make]
  rfl

/-- A write to an element of a map replaces the value of its key. -/
theorem write_index_map {code : Code} {base keyed : Expr} {id : Nat} {key : String}
    {m m₁ m₂ : Machine} (hbase : (base.eval code).on m = (.ok (.map id), m₁))
    (hkeyed : (keyed.eval code).on m₁ = (.ok (.str key), m₂)) (v : Value) :
    ((Target.index base keyed).write code v).on m =
      (.ok (), m₂.withHeap (m₂.heap.setMap id (Dict.insert key v))) := by
  rw [Target.write, on_bind_ok hbase, on_bind_ok hkeyed]
  rfl

/-- **A map is what its history leaves of it.** Induction on the history: each step that changes the
map is one event, and what is left of the events with it is what the step makes of the entries. -/
theorem MapHistory.records {id : Nat} {events : List MapEvent} {m : Machine}
    (h : MapHistory id events m) : m.heap.MapRecords id events := by
  induction h with
  | literal hvs hmap =>
    rw [eval_map hvs] at hmap
    cases hmap
    exact .newMap _ _
  | write hbase hkeyed _ hwrite ih =>
    rw [write_index_map hbase hkeyed] at hwrite
    cases hwrite
    exact ih.setMap (ih.2.insert _ _)
  | remove hunit _ hcall ih =>
    cases Library.get?_remove.symm.trans hunit
    obtain ⟨⟨n, rfl⟩, hroom⟩ := room_of_call hcall
    rw [Library.on_call_remove _ _ _ hroom] at hcall
    cases hcall
    exact ih.setMap (ih.2.erase _)
  | elsewhere _ hsame ih => exact ih.of_same hsame

/-! ## The views of a map -/

/-- All views of a map show what is left of the events. -/
structure Machine.ShowsMap (m : Machine) (id : Nat) (events : List MapEvent) : Prop where
  /-- `maps:keys` gives the keys that a value is left for, in ascending order of their bytes. -/
  keys : ∃ keys : List String, (keys.Pairwise fun s t => Text.bytes s < Text.bytes t) ∧
    (∀ key, key ∈ keys ↔ (lastWritten? key events).isSome = true) ∧
    ∀ unit, Library.standard.get? "ballerina.lang.maps:keys" = some unit →
      ∀ p rounds levels, m.context.depth < m.context.maxDepth →
        (call p rounds (levels + 1) (.native unit) [.map id]).on m =
          (.ok [(m.heap.newArray .string (keys.map Value.str).toArray).1],
            m.withHeap (m.heap.newArray .string (keys.map Value.str).toArray).2)
  /-- `maps:hasKey` tells whether a value is left for a key. -/
  hasKey : ∀ unit, Library.standard.get? "ballerina.lang.maps:hasKey" = some unit →
    ∀ key p rounds levels, m.context.depth < m.context.maxDepth →
      (call p rounds (levels + 1) (.native unit) [.map id, .str key]).on m =
        (.ok [.bool (lastWritten? key events).isSome], m)
  /-- An indexed read gives the value that is left for the key, and fails if there is none. -/
  read : ∀ code base keyed key m₀ m₁, (Expr.eval code base).on m₀ = (.ok (.map id), m₁) →
    (Expr.eval code keyed).on m₁ = (.ok (.str key), m) →
      ((Expr.index base keyed).eval code).on m₀ = match lastWritten? key events with
        | some v => (.ok v, m)
        | none => (.error (.failed (.fault (.keyNotFound key))), m)
  /-- The document of the map has a member for each key that a value is left for: the document of
  that value. -/
  rendered : ∀ key depth, ((Value.map id).toJsonWithin m.heap (depth + 1)).member? key =
    (lastWritten? key events).map fun v => v.toJsonWithin m.heap depth

/-- **All views of a map agree.** Let a map be made by a literal, and let values be written to it
and keys be removed from it in any order and through any expressions that give the map. Afterwards
`maps:keys` gives a new array of distinct keys in ascending order of their bytes. A key is among them
exactly if `maps:hasKey` gives true for it, if an indexed read does not fail for want of it, and if
the document of the map has a member of its name; this is so exactly if some value, a null maybe, was
written for the key and the key was not removed since. The value last written is then the one that
is read, and the one whose document is the member.

**Proof sketch.** The entries of the map are in order and are what is left of the history
(`MapHistory.records`). All four views are views of the entries, and the order of texts is that of
their bytes (`Text.bytes_lt_bytes`). -/
theorem map_views_agree {id : Nat} {events : List MapEvent} {m : Machine}
    (h : MapHistory id events m) : m.ShowsMap id events := by
  have hrecords : (m.heap.map id).Records events := h.records.2
  constructor
  case keys =>
    refine ⟨Dict.keys (m.heap.map id), ?_, hrecords.mem_keys_iff, fun unit hunit p rounds levels
      hroom => ?_⟩
    · exact List.pairwise_map.mpr (hrecords.sorted.imp Text.bytes_lt_bytes)
    · cases Library.get?_keys.symm.trans hunit
      exact Library.on_call_keys p rounds levels hroom id
  case hasKey =>
    intro unit hunit key p rounds levels hroom
    cases Library.get?_hasKey.symm.trans hunit
    rw [Library.on_call_hasKey p rounds levels hroom, Dict.contains, hrecords.find?]
  case read =>
    intro code base keyed key m₀ m₁ hbase hkeyed
    have helement : element m.heap base (.map id) (.str key) = match lastWritten? key events with
        | some v => .ok v
        | none => .error (.keyNotFound key) := by
      rw [← hrecords.find?]
      rfl
    rw [Expr.eval, on_bind_ok hbase, on_bind_ok hkeyed, on_bind_ok (on_heap m), helement]
    cases lastWritten? key events <;> rfl
  case rendered =>
    intro key depth
    rw [← hrecords.find?, ← Dict.find?_mapValues]
    rfl

/-! ### A map with two names -/

/-- A body with two variables. -/
def twoNames : Code where
  program := {}
  function := {
    sig := ⟨"f", "", .everyone, [], []⟩
    body := []
    layout := { slots := [.any, .any] } }
  call _ _ := pure []
  rounds := 0

/-- A state in which both variables hold a value. -/
def bothHold (v : Value) (heap : Heap) : Machine where
  context := {
    maxDepth := 2
    frames := [{ unit := "f", argCount := 0, slots := [v, v], temps := [], returns := [] }] }
  heap

/-- What happens to a map under two names: it is made with a repeated key, a null is written through
the first name, a key is removed, and another one is written through the second name. -/
def twoNamesEvents : List MapEvent :=
  [.write "c" (.int 4), .remove "b", .write "a" .bareNull, .write "b" (.int 3),
    .write "a" (.int 2), .write "b" (.int 1)]

/-- All views show the null and no longer show the removed key. -/
theorem map_views_agree_twoNames :
    ∃ m, MapHistory 0 twoNamesEvents m ∧ m.ShowsMap 0 twoNamesEvents ∧
      lastWritten? "a" twoNamesEvents = some .bareNull ∧
      lastWritten? "b" twoNamesEvents = none := by
  let entries : List (String × Value) := [("b", .int 1), ("a", .int 2), ("b", .int 3)]
  let made := (({} : Heap).newMap (Dict.ofList entries)).2
  have hvs : (evalEntries twoNames [("b", .int 1), ("a", .int 2), ("b", .int 3)]).on
      (bothHold .bareNull {}) = (.ok entries, bothHold .bareNull {}) := rfl
  have hmade : MapHistory 0 (ofEntries entries) (bothHold .bareNull made) :=
    .literal hvs (eval_map hvs)
  have hheld : MapHistory 0 (ofEntries entries) (bothHold (.map 0) made) := hmade.elsewhere rfl
  let nulled := made.setMap 0 (Dict.insert "a" .bareNull)
  let removed := nulled.setMap 0 (Dict.erase "b")
  have hx (heap : Heap) : ((Expr.var ⟨"x", some 0⟩).eval twoNames).on (bothHold (.map 0) heap) =
      (.ok (.map 0), bothHold (.map 0) heap) := rfl
  have hy (heap : Heap) : ((Expr.var ⟨"y", some 1⟩).eval twoNames).on (bothHold (.map 0) heap) =
      (.ok (.map 0), bothHold (.map 0) heap) := rfl
  have hkey (key : String) (heap : Heap) : ((Expr.str key).eval twoNames).on
      (bothHold (.map 0) heap) = (.ok (.str key), bothHold (.map 0) heap) := rfl
  have hnulled : MapHistory 0 _ (bothHold (.map 0) nulled) :=
    .write (hx made) (hkey "a" _) hheld (write_index_map (hx made) (hkey "a" _) .bareNull)
  have hremoved : MapHistory 0 _ (bothHold (.map 0) removed) :=
    .remove Library.get?_remove hnulled
      (Library.on_call_remove {} maxRounds 0 (by decide) 0 "b")
  have hwritten := MapHistory.write (hy removed) (hkey "c" _) hremoved
    (write_index_map (hy removed) (hkey "c" _) (.int 4))
  exact ⟨_, hwritten, map_views_agree hwritten, rfl, rfl⟩

end FrameScript
