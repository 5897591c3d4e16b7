/-
Plain objects that are used as maps: the own properties in their order, which are assigned one at a time, and the
properties that every plain object inherits. Reading a property that an object does not own may still find one.
-/
import Mathlib

namespace PlainObject

/-- The number that a key stands for: its decimal digits, without leading zeros, and below `2 ^ 32 - 1`. -/
def arrayIndex? (key : List Char) : Option Nat :=
  let index := key.foldl (fun n c => 10 * n + (c.toNat - '0'.toNat)) 0
  if key ≠ [] ∧ key.all Char.isDigit ∧ (key = ['0'] ∨ key.head? ≠ some '0') ∧ index < 2 ^ 32 - 1 then some index else none

/-- The keys that are numbers come first, in their order. -/
def precedes (key key' : List Char) : Bool :=
  match arrayIndex? key, arrayIndex? key' with
  | some index, some index' => index < index'
  | some _, none => true
  | none, _ => false

theorem irrefl_precedes (key : List Char) : ¬ precedes key key := by
  unfold precedes
  grind

theorem precedes_trans {key key' key'' : List Char} (h : precedes key key' = true) (h' : precedes key' key'' = true) :
    precedes key key'' = true := by
  unfold precedes at *
  grind

end PlainObject

/-- The own properties of a plain object. -/
structure PlainObject (α : Type) where
  entries : List (List Char × α)
  ordered : entries.Pairwise fun a b => a.1 ≠ b.1 ∧ ¬ PlainObject.precedes b.1 a.1

namespace PlainObject

variable {α β ε : Type}

instance [DecidableEq α] : DecidableEq (PlainObject α) := fun o o' =>
  decidable_of_iff (o.entries = o'.entries) ⟨fun h => by cases o; cases o'; cases h; rfl, fun h => h ▸ rfl⟩

theorem ext {o o' : PlainObject α} (h : o.entries = o'.entries) : o = o' := by
  cases o
  cases o'
  cases h
  rfl

/-- `Object.keys`. -/
def keys (o : PlainObject α) : List (List Char) := o.entries.map Prod.fst

/-- `Object.values`. -/
def values (o : PlainObject α) : List α := o.entries.map Prod.snd

def empty : PlainObject α := ⟨[], .nil⟩

theorem distinct (o : PlainObject α) : o.keys.Nodup := List.pairwise_map.mpr (o.ordered.imp And.left)

/-- The value of an own property. -/
def own? (o : PlainObject α) (key : List Char) : Option α := o.entries.lookup key

/-! ## Assignment -/

/-- The properties after `o[key] = value`: a property that is there keeps its place. -/
def assigned (key : List Char) (value : α) : List (List Char × α) → List (List Char × α)
  | [] => [(key, value)]
  | (k, v) :: rest =>
    if k = key then (key, value) :: rest
    else if precedes key k then (key, value) :: (k, v) :: rest
    else (k, v) :: assigned key value rest

variable {key : List Char} {value : α}

theorem mem_assigned {entry : List Char × α} {entries : List (List Char × α)} (h : entry ∈ assigned key value entries) :
    entry = (key, value) ∨ entry ∈ entries := by
  induction entries with
  | nil => exact .inl (List.mem_singleton.mp h)
  | cons first rest ih =>
    unfold assigned at h
    split at h
    · exact (List.mem_cons.mp h).imp_right (List.mem_cons_of_mem _)
    · split at h
      · exact List.mem_cons.mp h
      · rcases List.mem_cons.mp h with h | h
        · exact .inr (h ▸ List.mem_cons_self)
        · exact (ih h).imp_right (List.mem_cons_of_mem _)

theorem ordered_assigned {entries : List (List Char × α)}
    (h : entries.Pairwise fun a b => a.1 ≠ b.1 ∧ ¬ precedes b.1 a.1) :
    (assigned key value entries).Pairwise fun a b => a.1 ≠ b.1 ∧ ¬ precedes b.1 a.1 := by
  induction entries with
  | nil => exact List.pairwise_singleton _ _
  | cons first rest ih =>
    obtain ⟨hfirst, hrest⟩ := List.pairwise_cons.mp h
    unfold assigned
    split
    · next hsame =>
      subst hsame
      exact List.pairwise_cons.mpr ⟨hfirst, hrest⟩
    next hne =>
    split
    · next hlead =>
      -- What stands after the first key precedes neither it nor the new one.
      refine List.pairwise_cons.mpr ⟨fun entry hentry => ?_, h⟩
      rcases List.mem_cons.mp hentry with rfl | hentry
      · exact ⟨Ne.symm hne, fun hback => irrefl_precedes _ (precedes_trans hlead hback)⟩
      · refine ⟨?_, fun hback => (hfirst entry hentry).2 (precedes_trans hback hlead)⟩
        rintro rfl
        exact (hfirst entry hentry).2 hlead
    · next hlead =>
      refine List.pairwise_cons.mpr ⟨fun entry hentry => ?_, ih hrest⟩
      rcases mem_assigned hentry with rfl | hentry
      · exact ⟨hne, hlead⟩
      · exact hfirst entry hentry

def assign (o : PlainObject α) (key : List Char) (value : α) : PlainObject α :=
  ⟨assigned key value o.entries, ordered_assigned o.ordered⟩

variable {o : PlainObject α}

theorem mem_assign {entry : List Char × α}
    (h : entry ∈ (o.assign key value).entries) : entry = (key, value) ∨ entry ∈ o.entries := mem_assigned h

/-- A key that comes after those that are there is the last one. -/
theorem entries_assign_last (h : ∀ entry ∈ o.entries, entry.1 ≠ key ∧ ¬ precedes key entry.1) :
    (o.assign key value).entries = o.entries ++ [(key, value)] := by
  suffices hall : ∀ entries : List (List Char × α), (∀ entry ∈ entries, entry.1 ≠ key ∧ ¬ precedes key entry.1) →
      assigned key value entries = entries ++ [(key, value)] from hall o.entries h
  intro entries hlast
  induction entries with
  | nil => rfl
  | cons entry rest ih =>
    obtain ⟨hne, hlead⟩ := hlast entry List.mem_cons_self
    rw [assigned, if_neg hne, if_neg hlead, ih fun entry hentry => hlast entry (List.mem_cons_of_mem _ hentry)]
    rfl

/-- A new value keeps the values distinct. -/
theorem nodup_values_assign (h : o.values.Nodup) (hnew : value ∉ o.values) :
    (o.assign key value).values.Nodup := by
  suffices hall : ∀ entries : List (List Char × α), (entries.map Prod.snd).Nodup → value ∉ entries.map Prod.snd →
      ((assigned key value entries).map Prod.snd).Nodup ∧
        ∀ v ∈ (assigned key value entries).map Prod.snd, v = value ∨ v ∈ entries.map Prod.snd from (hall o.entries h hnew).1
  intro entries
  induction entries with
  | nil => exact fun _ _ => ⟨List.nodup_singleton value, fun v hv => .inl (List.mem_singleton.mp hv)⟩
  | cons entry rest ih =>
    intro hnodup hvalue
    rw [List.map_cons, List.nodup_cons] at hnodup
    rw [List.map_cons, List.mem_cons, not_or] at hvalue
    obtain ⟨hrest, hsub⟩ := ih hnodup.2 hvalue.2
    unfold assigned
    split
    · rw [List.map_cons, List.nodup_cons]
      refine ⟨⟨hvalue.2, hnodup.2⟩, fun v hv => ?_⟩
      exact (List.mem_cons.mp hv).imp_right (List.mem_cons_of_mem _)
    split
    · rw [List.map_cons, List.map_cons, List.nodup_cons, List.mem_cons, not_or, List.nodup_cons]
      exact ⟨⟨hvalue, hnodup⟩, fun v hv => List.mem_cons.mp hv⟩
    · rw [List.map_cons, List.nodup_cons]
      refine ⟨⟨fun hmem => ?_, hrest⟩, fun v hv => ?_⟩
      · rcases hsub _ hmem with heq | hmem
        · exact hvalue.1 heq.symm
        · exact hnodup.1 hmem
      · rcases List.mem_cons.mp hv with rfl | hv
        · exact .inr List.mem_cons_self
        · exact (hsub v hv).imp_right (List.mem_cons_of_mem _)

/-! ## Lookup -/

theorem own?_eq_some {o : PlainObject α} {key : List Char} {value : α} :
    o.own? key = some value ↔ (key, value) ∈ o.entries := by
  constructor
  · intro h
    obtain ⟨before, after, hentries, -⟩ := List.lookup_eq_some_iff.mp h
    rw [hentries]
    simp
  · intro h
    obtain ⟨before, after, hentries⟩ := List.append_of_mem h
    refine List.lookup_eq_some_iff.mpr ⟨before, after, hentries, fun p hp => ?_⟩
    have hdistinct := o.distinct
    rw [keys, hentries, List.map_append, List.map_cons] at hdistinct
    have hnot := (List.nodup_append.mp hdistinct).2.2 p.1 (List.mem_map_of_mem hp) key List.mem_cons_self
    simpa using fun h => hnot h.symm

theorem own?_eq_none {o : PlainObject α} {key : List Char} : o.own? key = none ↔ key ∉ o.keys := by
  rw [own?, List.lookup_eq_none_iff, keys]
  constructor
  · intro h hmem
    obtain ⟨entry, hentry, hkey⟩ := List.mem_map.mp hmem
    simpa [hkey] using h entry hentry
  · intro h entry hentry
    simpa using fun heq => h (List.mem_map.mpr ⟨entry, hentry, heq.symm⟩)

theorem mem_keys {o : PlainObject α} {key : List Char} : key ∈ o.keys ↔ ∃ value, (key, value) ∈ o.entries := by
  rw [keys, List.mem_map]
  constructor
  · rintro ⟨⟨_, value⟩, h, rfl⟩
    exact ⟨value, h⟩
  · rintro ⟨value, h⟩
    exact ⟨_, h, rfl⟩

/-- A key has one value. -/
theorem value_unique {value' : α} (h : (key, value) ∈ o.entries)
    (h' : (key, value') ∈ o.entries) : value = value' :=
  Option.some.inj ((own?_eq_some.mpr h).symm.trans (own?_eq_some.mpr h'))

/-! ## Inherited properties -/

/-- The names of the properties of `Object.prototype`. -/
def prototypeNames : List (List Char) :=
  ["constructor".toList, "__proto__".toList, "hasOwnProperty".toList, "isPrototypeOf".toList,
    "propertyIsEnumerable".toList, "toLocaleString".toList, "toString".toList, "valueOf".toList,
    "__defineGetter__".toList, "__defineSetter__".toList, "__lookupGetter__".toList, "__lookupSetter__".toList]

/-- What reading a property finds: a value of the object's own, a property of `Object.prototype`, or nothing. -/
inductive Property (α : Type) where
  | own (value : α)
  | inherited
  | undefined
deriving DecidableEq

/-- `o[key]`. -/
def read (o : PlainObject α) (key : List Char) : Property α :=
  match o.own? key with
  | some value => .own value
  | none => if key ∈ prototypeNames then .inherited else .undefined

theorem read_own {o : PlainObject α} {key : List Char} {value : α} (h : (key, value) ∈ o.entries) :
    o.read key = .own value := by
  rw [read, own?_eq_some.mpr h]

theorem read_of_notMem (h : key ∉ o.keys) :
    o.read key = if key ∈ prototypeNames then .inherited else .undefined := by
  rw [read, own?_eq_none.mpr h]

/-- The text of an inherited property in a template literal: `Object.prototype` itself, or a built-in function. -/
def inheritedText (key : List Char) : List Char :=
  if key = "__proto__".toList then "[object Object]".toList
  else "function ".toList ++ (if key = "constructor".toList then "Object".toList else key) ++
    "() \x7b [native code] \x7d".toList

/-! ## Objects built property by property -/

/-- Reads entries one by one, each with the object so far. -/
def collect (f : PlainObject α → List Char → β → Except ε (List Char × α)) :
    PlainObject α → List (List Char × β) → Except ε (PlainObject α)
  | o, [] => .ok o
  | o, (key, b) :: rest =>
    match f o key b with
    | .error failure => .error failure
    | .ok (key', value) => collect f (o.assign key' value) rest

section collect

variable {f : PlainObject α → List Char → β → Except ε (List Char × α)}

/-- What every assignment keeps, holds of the object at the end. -/
theorem collect_invariant {P : PlainObject α → Prop} : ∀ {entries : List (List Char × β)} {o o' : PlainObject α},
    collect f o entries = .ok o' → P o →
    (∀ o key b key' value, (key, b) ∈ entries → P o → f o key b = .ok (key', value) → P (o.assign key' value)) → P o'
  | [], o, o', h, ho, _ => Except.ok.inj h ▸ ho
  | (key, b) :: rest, o, o', h, ho, hstep => by
    unfold collect at h
    split at h
    · cases h
    · next key' value hf =>
      exact collect_invariant h (hstep o key b key' value List.mem_cons_self ho hf)
        fun o key b key' value hmem => hstep o key b key' value (List.mem_cons_of_mem _ hmem)

/-- An object whose properties are read as themselves is built again. -/
theorem collect_self {g : α → β} (o : PlainObject α) (hf : ∀ (o' : PlainObject α) (key : List Char) (value : α),
    (key, value) ∈ o.entries → (∀ entry ∈ o'.entries, entry ∈ o.entries) → key ∉ o'.keys →
    f o' key (g value) = .ok (key, value)) :
    collect f empty (o.entries.map fun entry => (entry.1, g entry.2)) = .ok o := by
  suffices hall : ∀ (rest : List (List Char × α)) (o' : PlainObject α), o'.entries ++ rest = o.entries →
      collect f o' (rest.map fun entry => (entry.1, g entry.2)) = .ok o from hall o.entries empty rfl
  intro rest
  induction rest with
  | nil =>
    intro o' h
    rw [List.append_nil] at h
    rw [ext h]
    rfl
  | cons entry rest ih =>
    intro o' h
    obtain ⟨key, value⟩ := entry
    have hmem : (key, value) ∈ o.entries := h ▸ List.mem_append_right _ List.mem_cons_self
    have hsub : ∀ entry ∈ o'.entries, entry ∈ o.entries := fun entry hentry => h ▸ List.mem_append_left _ hentry
    have hlast : ∀ entry ∈ o'.entries, entry.1 ≠ key ∧ ¬ precedes key entry.1 := fun entry hentry =>
      (List.pairwise_append.mp (h ▸ o.ordered)).2.2 entry hentry _ List.mem_cons_self
    have hfresh : key ∉ o'.keys := fun hkey => by
      obtain ⟨entry, hentry, hsame⟩ := List.mem_map.mp hkey
      exact (hlast entry hentry).1 hsame
    rw [List.map_cons, collect, hf o' key value hmem hsub hfresh]
    refine ih (o'.assign key value) ?_
    rw [entries_assign_last hlast, List.append_assoc]
    exact h

end collect

end PlainObject
