/-
Tables with declared constraints, as an embedded SQL database keeps them: a primary key, UNIQUE
indexes and a CHECK. A `Table` carries its own integrity, so a state that breaks a constraint
cannot be built; a statement that would break one returns the error instead. The lemmas say what
a statement does to the row at one key, so that a proof about a transaction can follow one key
through its statements.
-/
import Mathlib

namespace Relational

/-- The constraint a refused statement names. -/
inductive Violation where
  | unique
  | check
  | foreignKey
deriving DecidableEq

/-- An error type in which a refused statement can be thrown. -/
class Refusal (ε : Type) where
  refused : Violation → ε

instance : Refusal Violation := ⟨id⟩

/-! ## Statements in sequence -/

theorem bind_ok {ε α β : Type} {x : Except ε α} {f : α → Except ε β} {b : β} :
    (x >>= f) = .ok b ↔ ∃ a, x = .ok a ∧ f a = .ok b := by
  constructor
  · intro h
    cases x with
    | error e => cases h
    | ok a => exact ⟨a, rfl, h⟩
  · rintro ⟨a, rfl, h⟩
    exact h

theorem pure_ok {ε α : Type} {a b : α} : (pure a : Except ε α) = .ok b ↔ a = b := by
  constructor
  · intro h; cases h; rfl
  · rintro rfl; rfl

theorem map_ok {ε α β : Type} {x : Except ε α} {f : α → β} {b : β} :
    (f <$> x) = .ok b ↔ ∃ a, x = .ok a ∧ f a = b := by
  constructor
  · intro h
    cases x with
    | error e => cases h
    | ok a => cases h; exact ⟨a, rfl, rfl⟩
  · rintro ⟨a, rfl, rfl⟩
    rfl

theorem ok_of_toOption {ε α : Type} {x : Except ε α} {a : α} (h : x.toOption = some a) : x = .ok a := by
  cases x with
  | error e => cases h
  | ok b => rw [Option.some.inj h]

/-! ## Tables -/

/-- The constraints declared for rows `ρ`: the primary key, the UNIQUE indexes (two different rows
that may not stand in one table) and the CHECK of a row. -/
class Schema (ρ : Type) (κ : outParam Type) where
  key : ρ → κ
  clash : ρ → ρ → Bool
  check : ρ → Bool

/-- Two rows that violate the primary key or a UNIQUE index together. -/
def Conflict {ρ κ : Type} [Schema ρ κ] (a b : ρ) : Prop :=
  Schema.key a = Schema.key b ∨ Schema.clash a b = true ∨ Schema.clash b a = true

theorem Conflict.symm {ρ κ : Type} [Schema ρ κ] {a b : ρ} (h : Conflict a b) : Conflict b a := by
  rcases h with h | h | h
  · exact Or.inl h.symm
  · exact Or.inr (Or.inr h)
  · exact Or.inr (Or.inl h)

theorem conflict_of_key {ρ κ : Type} [Schema ρ κ] {a b : ρ} (h : Schema.key a = Schema.key b) :
    Conflict a b :=
  Or.inl h

theorem conflict_of_clash {ρ κ : Type} [Schema ρ κ] {a b : ρ} (h : Schema.clash a b = true) :
    Conflict a b :=
  Or.inr (Or.inl h)

variable {ρ κ : Type} [DecidableEq κ] [Schema ρ κ]

instance (a b : ρ) : Decidable (Conflict a b) :=
  inferInstanceAs (Decidable (_ ∨ _ ∨ _))

/-- A table: rows that respect the declared constraints. -/
structure Table (ρ : Type) {κ : Type} [DecidableEq κ] [Schema ρ κ] where
  rows : List ρ
  distinct : rows.Pairwise (fun a b => ¬ Conflict a b)
  checked : ∀ r ∈ rows, Schema.check r = true

namespace Table

/-- The empty table. -/
def empty : Table ρ := ⟨[], List.Pairwise.nil, by simp⟩

/-- The rows as a table, or the constraint they violate. -/
def accept {ε : Type} [Refusal ε] (rows : List ρ) : Except ε (Table ρ) :=
  if hc : ∀ r ∈ rows, Schema.check r = true then
    if hu : rows.Pairwise (fun a b => ¬ Conflict a b) then .ok ⟨rows, hu, hc⟩
    else .error (Refusal.refused .unique)
  else .error (Refusal.refused .check)

/-- The row with primary key `k`. -/
def get? (t : Table ρ) (k : κ) : Option ρ := t.rows.find? (fun r => Schema.key r = k)

/-- The first row with `k` in column `c`: the only one when `c` is declared UNIQUE. -/
def getBy {α : Type} [DecidableEq α] (t : Table ρ) (c : ρ → α) (k : α) : Option ρ := t.rows.find? (fun r => c r = k)

/-- `SELECT 1 FROM t WHERE p`. -/
def any (t : Table ρ) (p : ρ → Bool) : Bool := t.rows.any p

/-- `SELECT COUNT(*) FROM t WHERE p`. -/
def count (t : Table ρ) (p : ρ → Bool) : Nat := (t.rows.filter p).length

/-- `INSERT INTO t VALUES (r)`. -/
def insert {ε : Type} [Refusal ε] (t : Table ρ) (r : ρ) : Except ε (Table ρ) :=
  accept (t.rows ++ [r])

/-- `INSERT OR IGNORE INTO t VALUES (r)`: a row that violates a constraint is skipped. -/
def insertOrIgnore (t : Table ρ) (r : ρ) : Table ρ :=
  match t.insert r with
  | .ok t' => t'
  | .error (_ : Violation) => t

/-- `INSERT OR IGNORE INTO t SELECT …`: the selected rows one after the other. -/
def insertOrIgnoreAll (t : Table ρ) (rs : List ρ) : Table ρ := rs.foldl insertOrIgnore t

/-- The rows after `UPDATE t SET f WHERE p`. -/
def updated (p : ρ → Bool) (f : ρ → ρ) (r : ρ) : ρ := if p r then f r else r

/-- `UPDATE t SET f WHERE p`. -/
def update {ε : Type} [Refusal ε] (t : Table ρ) (p : ρ → Bool) (f : ρ → ρ) : Except ε (Table ρ) :=
  accept (t.rows.map (updated p f))

/-- `UPDATE t SET f WHERE p` with `changes = 1`, or the error. -/
def updateOne {ε : Type} [Refusal ε] (t : Table ρ) (error : ε) (p : ρ → Bool) (f : ρ → ρ) : Except ε (Table ρ) := do
  let t' ← t.update p f
  if t.count p ≠ 1 then throw error
  return t'

/-- `DELETE FROM t WHERE p`. -/
def delete (t : Table ρ) (p : ρ → Bool) : Table ρ where
  rows := t.rows.filter (fun r => !p r)
  distinct := t.distinct.filter _
  checked := fun r hr => t.checked r (List.mem_of_mem_filter hr)

/-- The first row of a list in an order: `ORDER BY … LIMIT 1`. -/
def first (before : ρ → ρ → Bool) : List ρ → Option ρ
  | [] => none
  | r :: rs =>
    match first before rs with
    | none => some r
    | some s => if before s r then some s else some r

/-- `SELECT … FROM t WHERE p ORDER BY before LIMIT 1`. -/
def select (t : Table ρ) (p : ρ → Bool) (before : ρ → ρ → Bool) : Option ρ :=
  first before (t.rows.filter p)

@[ext] theorem ext {t t' : Table ρ} (h : t.rows = t'.rows) : t = t' := by
  cases t; cases t'; cases h; rfl

/-! ## Reading a table -/

variable {ε : Type}

theorem accept_ok [Refusal ε] {rows : List ρ} {t : Table ρ}
    (h : accept (ε := ε) rows = .ok t) : t.rows = rows := by
  unfold accept at h
  split at h
  · split at h
    · cases h; rfl
    · cases h
  · cases h

theorem accept_of [Refusal ε] {rows : List ρ} (hc : ∀ r ∈ rows, Schema.check r = true)
    (hu : rows.Pairwise (fun a b => ¬ Conflict a b)) :
    accept (ε := ε) rows = .ok ⟨rows, hu, hc⟩ := by
  unfold accept
  rw [dif_pos hc, dif_pos hu]

/-- Two rows of a table that conflict are the same row. -/
theorem eq_of_conflict (t : Table ρ) {a b : ρ} (ha : a ∈ t.rows) (hb : b ∈ t.rows)
    (h : Conflict a b) : a = b := by
  by_contra hne
  have hs : Std.Symm (fun a b : ρ => ¬ Conflict a b) := ⟨fun _ _ hab hba => hab hba.symm⟩
  exact t.distinct.forall ha hb hne h

/-- Two rows that agree in column `c` break a declared constraint. -/
def Unique {α : Type} (c : ρ → α) : Prop := ∀ a b : ρ, c a = c b → Conflict a b

omit [DecidableEq κ] in
theorem unique_key : Unique (Schema.key : ρ → κ) := fun _ _ h => conflict_of_key h

section Column

variable {α : Type} [DecidableEq α] {c : ρ → α}

theorem getBy_mem {t : Table ρ} {k : α} {r : ρ} (h : t.getBy c k = some r) : r ∈ t.rows :=
  List.mem_of_find?_eq_some h

theorem getBy_column {t : Table ρ} {k : α} {r : ρ} (h : t.getBy c k = some r) : c r = k := by
  simpa using List.find?_some h

theorem getBy_of_mem (hc : Unique c) {t : Table ρ} {r : ρ} (h : r ∈ t.rows) : t.getBy c (c r) = some r := by
  unfold getBy
  rcases hf : t.rows.find? (fun s => c s = c r) with _ | s
  · rw [List.find?_eq_none] at hf
    simpa using hf r h
  · have hk : c s = c r := by simpa using List.find?_some hf
    rw [t.eq_of_conflict (List.mem_of_find?_eq_some hf) h (hc s r hk)]

theorem getBy_eq_some (hc : Unique c) {t : Table ρ} {k : α} {r : ρ} :
    t.getBy c k = some r ↔ r ∈ t.rows ∧ c r = k :=
  ⟨fun h => ⟨getBy_mem h, getBy_column h⟩, fun h => h.2 ▸ getBy_of_mem hc h.1⟩

theorem getBy_eq_none {t : Table ρ} {k : α} : t.getBy c k = none ↔ ∀ r ∈ t.rows, c r ≠ k := by
  unfold getBy
  rw [List.find?_eq_none]
  simp

end Column

theorem get?_mem {t : Table ρ} {k : κ} {r : ρ} (h : t.get? k = some r) : r ∈ t.rows := getBy_mem h

theorem get?_key {t : Table ρ} {k : κ} {r : ρ} (h : t.get? k = some r) : Schema.key r = k := getBy_column h

theorem get?_of_mem {t : Table ρ} {r : ρ} (h : r ∈ t.rows) : t.get? (Schema.key r) = some r :=
  getBy_of_mem unique_key h

theorem get?_eq_none {t : Table ρ} {k : κ} : t.get? k = none ↔ ∀ r ∈ t.rows, Schema.key r ≠ k := getBy_eq_none

theorem any_eq_true {t : Table ρ} {p : ρ → Bool} : t.any p = true ↔ ∃ r ∈ t.rows, p r = true :=
  List.any_eq_true

theorem any_eq_false {t : Table ρ} {p : ρ → Bool} : t.any p = false ↔ ∀ r ∈ t.rows, p r = false := by
  unfold any
  rw [List.any_eq_false]
  simp

variable {p : ρ → Bool}

/-- What `changes = 1` says about the selected rows. -/
theorem count_eq_one {t : Table ρ} (h : t.count p = 1) :
    ∃ r ∈ t.rows, p r = true ∧ ∀ s ∈ t.rows, p s = true → s = r := by
  obtain ⟨r, hr⟩ := List.length_eq_one_iff.mp h
  have hmem : ∀ s, s ∈ t.rows ∧ p s = true ↔ s = r := by
    intro s
    rw [← List.mem_filter, hr, List.mem_singleton]
  exact ⟨r, ((hmem r).mpr rfl).1, ((hmem r).mpr rfl).2, fun s hs hp => (hmem s).mp ⟨hs, hp⟩⟩

/-! ## Statements, followed at one key -/

variable {r : ρ}

theorem insert_rows [Refusal ε] {t t' : Table ρ}
    (h : t.insert (ε := ε) r = .ok t') : t'.rows = t.rows ++ [r] :=
  accept_ok h

/-- An inserted row conflicts with no row that was there. -/
theorem insert_fresh [Refusal ε] {t t' : Table ρ}
    (h : t.insert (ε := ε) r = .ok t') : ∀ s ∈ t.rows, ¬ Conflict s r := by
  have hd := t'.distinct
  rw [insert_rows h, List.pairwise_append] at hd
  intro s hs
  exact hd.2.2 s hs r (List.mem_singleton_self r)

theorem get?_insert_fresh [Refusal ε] {t t' : Table ρ}
    (h : t.insert (ε := ε) r = .ok t') : t.get? (Schema.key r) = none :=
  get?_eq_none.mpr fun s hs hk => insert_fresh h s hs (conflict_of_key hk)

theorem getBy_insert {α : Type} [Refusal ε] [DecidableEq α] {c : ρ → α} (hc : Unique c) {t t' : Table ρ}
    (h : t.insert (ε := ε) r = .ok t') (k : α) :
    t'.getBy c k = if k = c r then some r else t.getBy c k := by
  split
  · rename_i hk
    rw [hk]
    exact getBy_of_mem hc (by rw [insert_rows h]; simp)
  · rename_i hk
    unfold getBy
    rw [insert_rows h, List.find?_append, List.find?_singleton, if_neg (by simpa using fun e => hk e.symm)]
    simp

theorem get?_insert [Refusal ε] {t t' : Table ρ} (h : t.insert (ε := ε) r = .ok t') (k : κ) :
    t'.get? k = if k = Schema.key r then some r else t.get? k :=
  getBy_insert unique_key h k

/-- A row that passes its CHECK and conflicts with nothing is inserted. -/
theorem insert_of [Refusal ε] {t : Table ρ} (hc : Schema.check r = true)
    (hu : ∀ s ∈ t.rows, ¬ Conflict s r) : ∃ t', t.insert (ε := ε) r = .ok t' := by
  refine ⟨_, accept_of ?_ ?_⟩
  · intro s hs
    rcases List.mem_append.mp hs with hs | hs
    · exact t.checked s hs
    · rw [List.mem_singleton.mp hs]; exact hc
  · rw [List.pairwise_append]
    refine ⟨t.distinct, List.pairwise_singleton _ _, ?_⟩
    intro a ha b hb
    rw [List.mem_singleton.mp hb]
    exact hu a ha

variable {f : ρ → ρ}

theorem update_rows [Refusal ε] {t t' : Table ρ}
    (h : t.update (ε := ε) p f = .ok t') : t'.rows = t.rows.map (updated p f) :=
  accept_ok h

theorem update_congr [Refusal ε] {t : Table ρ} {q : ρ → Bool}
    (h : ∀ r ∈ t.rows, p r = q r) : t.update (ε := ε) p f = t.update q f := by
  unfold update
  congr 1
  refine List.map_congr_left fun r hr => ?_
  simp only [updated, h r hr]

/-- After an update the selected rows pass their CHECK. -/
theorem update_check [Refusal ε] {t t' : Table ρ}
    (h : t.update (ε := ε) p f = .ok t') (hr : r ∈ t.rows) (hp : p r = true) :
    Schema.check (f r) = true := by
  apply t'.checked
  rw [update_rows h]
  exact List.mem_map.mpr ⟨r, hr, by simp [updated, hp]⟩

theorem find?_map_updated {α : Type} [DecidableEq α] (c : ρ → α) (p : ρ → Bool) (f : ρ → ρ)
    (hk : ∀ r : ρ, c (f r) = c r) (k : α) : ∀ rows : List ρ,
    (rows.map (updated p f)).find? (fun r => c r = k) = (rows.find? (fun r => c r = k)).map (updated p f)
  | [] => rfl
  | r :: rows => by
    have hr : c (updated p f r) = c r := by
      unfold updated; split
      · exact hk r
      · rfl
    rw [List.map_cons, List.find?_cons, List.find?_cons, hr, find?_map_updated c p f hk k rows]
    by_cases h : c r = k <;> simp [h]

theorem getBy_update {α : Type} [Refusal ε] [DecidableEq α] {c : ρ → α} {t t' : Table ρ}
    (h : t.update (ε := ε) p f = .ok t') (hk : ∀ r, c (f r) = c r) (k : α) :
    t'.getBy c k = (t.getBy c k).map (updated p f) := by
  unfold getBy
  rw [update_rows h, find?_map_updated c p f hk k]

theorem get?_update [Refusal ε] {t t' : Table ρ}
    (h : t.update (ε := ε) p f = .ok t') (hk : ∀ r, Schema.key (f r) = Schema.key r) (k : κ) :
    t'.get? k = (t.get? k).map (updated p f) :=
  getBy_update h hk k

/-- A statement that assigns what is there already changes nothing. -/
theorem update_fixed [Refusal ε] {t : Table ρ}
    (h : ∀ r ∈ t.rows, p r = true → f r = r) : t.update (ε := ε) p f = .ok t := by
  have hrows : t.rows.map (updated p f) = t.rows := by
    conv_rhs => rw [← List.map_id t.rows]
    refine List.map_congr_left fun r hr => ?_
    unfold updated
    split
    · rename_i hp; exact h r hr hp
    · rfl
  unfold update
  rw [hrows]
  exact accept_of t.checked t.distinct

/-- A statement whose `WHERE` selects nothing changes nothing. -/
theorem update_idle [Refusal ε] {t : Table ρ}
    (h : ∀ r ∈ t.rows, p r = false) : t.update (ε := ε) p f = .ok t :=
  update_fixed fun r hr hp => by rw [h r hr] at hp; cases hp

theorem delete_idle {t : Table ρ} {p : ρ → Bool} (h : ∀ r ∈ t.rows, p r = false) : t.delete p = t :=
  ext (List.filter_eq_self.mpr fun r hr => by simp [h r hr])

variable {k : κ}

/-- An update that selects only the row at `x` leaves every other key alone. -/
theorem get?_update_ne [Refusal ε] {t t' : Table ρ}
    (h : t.update (ε := ε) p f = .ok t') (hk : ∀ r, Schema.key (f r) = Schema.key r) {x : κ}
    (hp : ∀ r, p r = true → Schema.key r = x) (hne : k ≠ x) : t'.get? k = t.get? k := by
  rw [get?_update h hk]
  cases hg : t.get? k with
  | none => rfl
  | some r =>
    have hr : ¬ p r = true := fun hpr => hne ((get?_key hg).symm.trans (hp r hpr))
    simp [updated, hr]

theorem get?_update_self [Refusal ε] {t t' : Table ρ}
    (h : t.update (ε := ε) p f = .ok t') (hk : ∀ r, Schema.key (f r) = Schema.key r)
    (hr : t.get? k = some r) (hp : p r = true) : t'.get? k = some (f r) := by
  rw [get?_update h hk, hr]
  simp [updated, hp]

/-- An update keeps whatever its assignments leave alone. -/
theorem map_get?_update [Refusal ε] {α : Type} {t t' : Table ρ}
    (h : t.update (ε := ε) p f = .ok t') (hk : ∀ r, Schema.key (f r) = Schema.key r) (g : ρ → α)
    (hg : ∀ r, g (f r) = g r) (k : κ) : (t'.get? k).map g = (t.get? k).map g := by
  rw [get?_update h hk, Option.map_map]
  congr 1
  funext r
  unfold updated
  simp only [Function.comp]
  split
  · exact hg r
  · rfl

/-- An update selected by the key. -/
theorem get?_update_at [Refusal ε] {t t' : Table ρ}
    (h : t.update (ε := ε) p f = .ok t') (hk : ∀ r, Schema.key (f r) = Schema.key r) {x : κ}
    (hp : ∀ r, p r = true ↔ Schema.key r = x) (k : κ) :
    t'.get? k = if k = x then (t.get? x).map f else t.get? k := by
  split
  · rename_i hx
    rw [hx, get?_update h hk]
    cases hg : t.get? x with
    | none => rfl
    | some r => simp [updated, (hp r).mpr (get?_key hg)]
  · rename_i hx
    exact get?_update_ne h hk (fun r hr => (hp r).mp hr) hx

theorem updateOne_update [Refusal ε] {t t' : Table ρ} {error : ε}
    (h : t.updateOne error p f = .ok t') : t.update (ε := ε) p f = .ok t' := by
  unfold updateOne at h
  obtain ⟨t₁, hu, h⟩ := bind_ok.mp h
  split at h
  · cases h
  · cases pure_ok.mp h
    exact hu

/-- A successful `updateOne` assigns one row and leaves every other key alone. -/
theorem get?_updateOne [Refusal ε] {t t' : Table ρ} {error : ε}
    (h : t.updateOne error p f = .ok t') (hk : ∀ r, Schema.key (f r) = Schema.key r) :
    ∃ r, t.get? (Schema.key r) = some r ∧ p r = true ∧
      ∀ k, t'.get? k = if k = Schema.key r then some (f r) else t.get? k := by
  unfold updateOne at h
  obtain ⟨t₁, hu, h⟩ := bind_ok.mp h
  split at h
  · cases h
  · rename_i hcount
    cases pure_ok.mp h
    obtain ⟨r, hr, hp, hself⟩ := count_eq_one (not_not.mp hcount)
    have hget : t.get? (Schema.key r) = some r := get?_of_mem hr
    refine ⟨r, hget, hp, ?_⟩
    intro k
    split
    · rename_i hkey
      rw [hkey]
      exact get?_update_self hu hk hget hp
    · rename_i hne
      rw [get?_update hu hk]
      cases hg : t.get? k with
      | none => rfl
      | some s =>
        have hs : ¬ p s = true := fun hps => hne ((get?_key hg).symm.trans (by rw [hself s (get?_mem hg) hps]))
        simp [updated, hs]

/-- An update that creates no new conflict and keeps the CHECK of what it selects succeeds. -/
theorem update_of [Refusal ε] {t : Table ρ} (hc : ∀ r ∈ t.rows, p r = true → Schema.check (f r) = true)
    (hu : ∀ a ∈ t.rows, ∀ b ∈ t.rows, Conflict (updated p f a) (updated p f b) → Conflict a b) :
    ∃ t', t.update (ε := ε) p f = .ok t' := by
  refine ⟨_, accept_of ?_ ?_⟩
  · intro s hs
    obtain ⟨r, hr, rfl⟩ := List.mem_map.mp hs
    unfold updated
    split
    · rename_i hp; exact hc r hr hp
    · exact t.checked r hr
  · rw [List.pairwise_map]
    exact t.distinct.imp_of_mem fun ha hb hab hcon => hab (hu _ ha _ hb hcon)

theorem nodup_rows (t : Table ρ) : t.rows.Nodup :=
  t.distinct.imp fun hab he => hab (conflict_of_key (by rw [he]))

theorem count_of_mem {t : Table ρ} (hr : r ∈ t.rows) (hp : p r = true)
    (hself : ∀ s ∈ t.rows, p s = true → s = r) : t.count p = 1 := by
  unfold count
  have hmem : r ∈ t.rows.filter p := List.mem_filter.mpr ⟨hr, hp⟩
  have hall : ∀ s ∈ t.rows.filter p, s = r := fun s hs =>
    hself s (List.mem_filter.mp hs).1 (List.mem_filter.mp hs).2
  have hnodup : (t.rows.filter p).Nodup := t.nodup_rows.filter p
  match hf : t.rows.filter p with
  | [] => rw [hf] at hmem; cases hmem
  | [_] => rfl
  | a :: b :: rest =>
    rw [hf] at hall hnodup
    have hab : a = b := (hall a (by simp)).trans (hall b (by simp)).symm
    rw [List.nodup_cons] at hnodup
    exact absurd (by rw [hab]; exact List.mem_cons_self) hnodup.1

/-- An update of one row that keeps its CHECK and conflicts with no other row succeeds. -/
theorem update_one_of [Refusal ε] {t : Table ρ}
    (hself : ∀ s ∈ t.rows, p s = true → s = r) (hc : Schema.check (f r) = true)
    (hu : ∀ s ∈ t.rows, Conflict (f r) s → Conflict r s) : ∃ t', t.update (ε := ε) p f = .ok t' := by
  refine update_of ?_ ?_
  · intro s hs hps
    rw [hself s hs hps]
    exact hc
  · intro a ha b hb hab
    unfold updated at hab
    split at hab
    · rename_i hpa
      rw [hself a ha hpa] at hab ⊢
      split at hab
      · rename_i hpb
        rw [hself b hb hpb]
        exact conflict_of_key rfl
      · exact hu b hb hab
    · split at hab
      · rename_i hpb
        rw [hself b hb hpb] at hab ⊢
        exact (hu a ha hab.symm).symm
      · exact hab

theorem updateOne_of [Refusal ε] {t : Table ρ} {error : ε} (hr : r ∈ t.rows)
    (hp : p r = true) (hself : ∀ s ∈ t.rows, p s = true → s = r) (hc : Schema.check (f r) = true)
    (hu : ∀ s ∈ t.rows, Conflict (f r) s → Conflict r s) : ∃ t', t.updateOne error p f = .ok t' := by
  obtain ⟨t', h⟩ := update_one_of (ε := ε) hself hc hu
  refine ⟨t', ?_⟩
  unfold updateOne
  rw [h, count_of_mem hr hp hself]
  rfl

/-! ## A property of every row -/

theorem all_insert [Refusal ε] {P : ρ → Prop} {t t' : Table ρ} (h : t.insert (ε := ε) r = .ok t')
    (ht : ∀ s ∈ t.rows, P s) (hr : P r) : ∀ s ∈ t'.rows, P s := by
  intro s hs
  rw [insert_rows h, List.mem_append, List.mem_singleton] at hs
  rcases hs with hs | rfl
  · exact ht s hs
  · exact hr

theorem all_update [Refusal ε] {P : ρ → Prop} {t t' : Table ρ}
    (h : t.update (ε := ε) p f = .ok t') (ht : ∀ s ∈ t.rows, P s) (hf : ∀ s ∈ t.rows, p s = true → P (f s)) :
    ∀ s ∈ t'.rows, P s := by
  intro s hs
  rw [update_rows h] at hs
  obtain ⟨r, hr, rfl⟩ := List.mem_map.mp hs
  unfold updated
  split
  · rename_i hp
    exact hf r hr hp
  · exact ht r hr

/-- An update keeps the keys that are there. -/
theorem isSome_update [Refusal ε] {t t' : Table ρ}
    (h : t.update (ε := ε) p f = .ok t') (hk : ∀ r, Schema.key (f r) = Schema.key r) (k : κ) :
    (t'.get? k).isSome = (t.get? k).isSome := by
  rw [get?_update h hk, Option.isSome_map]

theorem isSome_insert [Refusal ε] {t t' : Table ρ} (h : t.insert (ε := ε) r = .ok t')
    (hk : (t.get? k).isSome = true) : (t'.get? k).isSome = true := by
  rw [get?_insert h]
  split
  · rfl
  · exact hk

/-! ## Rows that stay -/

/-- Every row is still there, as a row that follows it. -/
def Grows (R : ρ → ρ → Prop) (t t' : Table ρ) : Prop := ∀ k r, t.get? k = some r → ∃ r', t'.get? k = some r' ∧ R r r'

namespace Grows

variable {R : ρ → ρ → Prop} {t t' t'' : Table ρ}

theorem refl (hR : ∀ r, R r r) (t : Table ρ) : Grows R t t := fun _ r hr => ⟨r, hr, hR r⟩

theorem trans (hR : ∀ r s u, R r s → R s u → R r u) (h : Grows R t t') (h' : Grows R t' t'') : Grows R t t'' := by
  intro k r hr
  obtain ⟨s, hs, hrs⟩ := h k r hr
  obtain ⟨u, hu, hsu⟩ := h' k s hs
  exact ⟨u, hu, hR r s u hrs hsu⟩

theorem insert {ε : Type} [Refusal ε] {r : ρ} (hR : ∀ r, R r r) (h : t.insert (ε := ε) r = .ok t') : Grows R t t' := by
  intro k s hs
  have hne : k ≠ Schema.key r := by
    rintro rfl
    rw [get?_insert_fresh h] at hs
    cases hs
  exact ⟨s, by rw [get?_insert h, if_neg hne]; exact hs, hR s⟩

theorem update {ε : Type} [Refusal ε] {p : ρ → Bool} {f : ρ → ρ} (hR : ∀ r, R r r)
    (h : t.update (ε := ε) p f = .ok t') (hk : ∀ r, Schema.key (f r) = Schema.key r)
    (hf : ∀ r ∈ t.rows, p r = true → R r (f r)) : Grows R t t' := by
  intro k r hr
  refine ⟨_, by rw [get?_update h hk, hr]; rfl, ?_⟩
  unfold updated
  split
  · exact hf r (get?_mem hr) ‹_›
  · exact hR r

end Grows

/-! ## Sizes -/

theorem insert_length [Refusal ε] {t t' : Table ρ} (h : t.insert (ε := ε) r = .ok t') :
    t'.rows.length = t.rows.length + 1 := by
  rw [insert_rows h]
  simp

theorem update_length [Refusal ε] {t t' : Table ρ}
    (h : t.update (ε := ε) p f = .ok t') : t'.rows.length = t.rows.length := by
  rw [update_rows h]
  simp

theorem updateOne_length [Refusal ε] {t t' : Table ρ} {error : ε}
    (h : t.updateOne error p f = .ok t') : t'.rows.length = t.rows.length :=
  update_length (updateOne_update h)

/-- A table whose UNIQUE column refers to the rows of another has no more rows than it. -/
theorem length_le_of_reference {ρ' κ' : Type} [DecidableEq κ'] [Schema ρ' κ'] {t : Table ρ} {u : Table ρ'} {c : ρ → κ'}
    (hc : Unique c) (hu : ∀ r ∈ t.rows, (u.get? (c r)).isSome) : t.rows.length ≤ u.rows.length := by
  have hnodup : (t.rows.map c).Nodup := by
    rw [List.nodup_iff_pairwise_ne, List.pairwise_map]
    exact t.distinct.imp fun hab he => hab (hc _ _ he)
  have hsubset : t.rows.map c ⊆ u.rows.map Schema.key := by
    intro k hk
    obtain ⟨r, hr, rfl⟩ := List.mem_map.mp hk
    obtain ⟨s, hs⟩ := Option.isSome_iff_exists.mp (hu r hr)
    exact List.mem_map.mpr ⟨s, get?_mem hs, get?_key hs⟩
  simpa using (List.subperm_of_subset hnodup hsubset).length_le

omit [DecidableEq κ] in
theorem find?_filter_not {α : Type} [DecidableEq α] {c : ρ → α} (hc : Unique c) (p : ρ → Bool) (k : α) :
    ∀ rows : List ρ, rows.Pairwise (fun a b => ¬ Conflict a b) →
    (rows.filter (fun r => !p r)).find? (fun r => c r = k) =
      (rows.find? (fun r => c r = k)).filter (fun r => !p r)
  | [], _ => rfl
  | r :: rows, hd => by
    rw [List.pairwise_cons] at hd
    have ih := find?_filter_not hc p k rows hd.2
    by_cases hk : c r = k
    · by_cases hp : p r = true
      · -- the deleted row was the only one with this value
        have hn : rows.find? (fun s => c s = k) = none := by
          rw [List.find?_eq_none]
          intro s hs he
          have hs' : c s = k := by simpa using he
          exact hd.1 s hs (hc r s (hk.trans hs'.symm))
        rw [hn] at ih
        simp only [Option.filter_none] at ih
        simp [hp, hk, ih, Option.filter]
      · simp [hp, hk, Option.filter]
    · by_cases hp : p r = true <;> simp [hp, hk, ih]

theorem getBy_delete {α : Type} [DecidableEq α] {c : ρ → α} (hc : Unique c) (t : Table ρ) (p : ρ → Bool) (k : α) :
    (t.delete p).getBy c k = (t.getBy c k).filter (fun r => !p r) :=
  find?_filter_not hc p k t.rows t.distinct

@[simp] theorem get?_delete (t : Table ρ) (p : ρ → Bool) (k : κ) :
    (t.delete p).get? k = (t.get? k).filter (fun r => !p r) :=
  getBy_delete unique_key t p k

theorem mem_delete {t : Table ρ} :
    r ∈ (t.delete p).rows ↔ r ∈ t.rows ∧ p r = false := by
  simp [delete, List.mem_filter]

theorem any_delete (t : Table ρ) (p q : ρ → Bool) : (t.delete p).any q = t.any (fun r => !p r && q r) := by
  simp [any, delete, List.any_filter]

theorem any_insert [Refusal ε] {t t' : Table ρ} (h : t.insert (ε := ε) r = .ok t')
    (q : ρ → Bool) : t'.any q = (t.any q || q r) := by
  simp [any, insert_rows h, List.any_append]

/-! ## Inserts that may be ignored -/

theorem insertOrIgnore_subset (t : Table ρ) (r : ρ) : t.rows ⊆ (t.insertOrIgnore r).rows := by
  intro s hs
  unfold insertOrIgnore
  split
  · rename_i t' h
    rw [insert_rows h]
    exact List.mem_append_left _ hs
  · exact hs

theorem mem_insertOrIgnore {t : Table ρ} {s : ρ} (h : s ∈ (t.insertOrIgnore r).rows) :
    s ∈ t.rows ∨ s = r := by
  unfold insertOrIgnore at h
  split at h
  · rename_i t' ht
    rw [insert_rows ht] at h
    simpa using h
  · exact Or.inl h

theorem insertOrIgnore_mem {t : Table ρ} (hc : Schema.check r = true)
    (hu : ∀ s ∈ t.rows, ¬ Conflict s r) : r ∈ (t.insertOrIgnore r).rows := by
  obtain ⟨t', h⟩ := insert_of (ε := Violation) hc hu
  unfold insertOrIgnore
  rw [h]
  simp [insert_rows h]

theorem insertOrIgnoreAll_subset : ∀ (rs : List ρ) (t : Table ρ), t.rows ⊆ (t.insertOrIgnoreAll rs).rows
  | [], _ => List.Subset.refl _
  | r :: rs, t => List.Subset.trans (insertOrIgnore_subset t r) (insertOrIgnoreAll_subset rs (t.insertOrIgnore r))

theorem mem_insertOrIgnoreAll : ∀ (rs : List ρ) (t : Table ρ) {s : ρ},
    s ∈ (t.insertOrIgnoreAll rs).rows → s ∈ t.rows ∨ s ∈ rs
  | [], _, _, h => Or.inl h
  | r :: rs, t, s, h => by
    rcases mem_insertOrIgnoreAll rs (t.insertOrIgnore r) h with h | h
    · rcases mem_insertOrIgnore h with h | h
      · exact Or.inl h
      · exact Or.inr (by simp [h])
    · exact Or.inr (List.mem_cons_of_mem _ h)

/-- No row is swallowed when the selected rows conflict neither with the table nor with each other. -/
theorem insertOrIgnoreAll_mem : ∀ (rs : List ρ) (t : Table ρ),
    (∀ r ∈ rs, Schema.check r = true) → (∀ r ∈ rs, ∀ s ∈ t.rows, ¬ Conflict s r) →
    rs.Pairwise (fun a b => ¬ Conflict a b) → ∀ r ∈ rs, r ∈ (t.insertOrIgnoreAll rs).rows
  | [], _, _, _, _, r, hr => by cases hr
  | r₀ :: rs, t, hc, hu, hd, r, hr => by
    rw [List.pairwise_cons] at hd
    rcases List.mem_cons.mp hr with rfl | hr
    · exact insertOrIgnoreAll_subset rs _
        (insertOrIgnore_mem (hc r List.mem_cons_self) (hu r List.mem_cons_self))
    · refine insertOrIgnoreAll_mem rs (t.insertOrIgnore r₀)
        (fun s hs => hc s (List.mem_cons_of_mem _ hs)) ?_ hd.2 r hr
      intro s hs u hu'
      rcases mem_insertOrIgnore hu' with hu' | rfl
      · exact hu s (List.mem_cons_of_mem _ hs) u hu'
      · exact hd.1 s hs

theorem any_insertOrIgnoreAll_ne (rs : List ρ) (t : Table ρ) {q : ρ → Bool} (hq : ∀ r ∈ rs, q r = false) :
    (t.insertOrIgnoreAll rs).any q = t.any q := by
  rw [Bool.eq_iff_iff, any_eq_true, any_eq_true]
  constructor
  · rintro ⟨r, hr, hqr⟩
    rcases mem_insertOrIgnoreAll rs t hr with hr | hr
    · exact ⟨r, hr, hqr⟩
    · rw [hq r hr] at hqr; cases hqr
  · rintro ⟨r, hr, hqr⟩
    exact ⟨r, insertOrIgnoreAll_subset rs t hr, hqr⟩

/-! ## Ordered selection -/

theorem first_mem {before : ρ → ρ → Bool} : ∀ {rs : List ρ} {r : ρ}, first before rs = some r → r ∈ rs
  | [], _, h => by cases h
  | s :: rs, r, h => by
    unfold first at h
    split at h
    · cases h; exact List.mem_cons_self
    · rename_i u hu
      split at h
      · cases h; exact List.mem_cons_of_mem _ (first_mem hu)
      · cases h; exact List.mem_cons_self

theorem select_mem {t : Table ρ} {before : ρ → ρ → Bool}
    (h : t.select p before = some r) : r ∈ t.rows ∧ p r = true :=
  List.mem_filter.mp (first_mem h)

end Table
end Relational
