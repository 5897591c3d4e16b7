/-
Operations that read and write a database statement by statement. An operation that throws leaves behind what its statements
wrote; a transaction rolls that back and keeps what an operation wrote that answers.
-/
import Mathlib

namespace Relational

/-- An operation on databases `σ`: its answer or its error, and the database it leaves. -/
def Session (σ ε α : Type) : Type := σ → Except ε α × σ

namespace Session

variable {σ ε α β : Type}

instance : Monad (Session σ ε) where
  pure a := fun db => (.ok a, db)
  bind s f := fun db =>
    match s db with
    | (.ok a, db') => f a db'
    | (.error e, db') => (.error e, db')

def read (query : σ → α) : Session σ ε α := fun db => (.ok (query db), db)

def raise (error : ε) : Session σ ε α := fun db => (.error error, db)

/-- One statement, which writes nothing where it is refused. -/
def statement (run : σ → Except ε (α × σ)) : Session σ ε α := fun db =>
  match run db with
  | .ok (a, db') => (.ok a, db')
  | .error e => (.error e, db)

/-- `BEGIN`, the operation, and `COMMIT`, or `ROLLBACK` where it threw. -/
def transaction (s : Session σ ε α) : Session σ ε α := fun db =>
  match s db with
  | (.ok a, db') => (.ok a, db')
  | (.error e, _) => (.error e, db)

/-- The answer and the database of an operation that does not throw. -/
def result (s : Session σ ε α) (db : σ) : Except ε (α × σ) :=
  match s db with
  | (.ok a, db') => .ok (a, db')
  | (.error e, _) => .error e

@[simp] theorem result_pure (a : α) (db : σ) : (pure a : Session σ ε α).result db = .ok (a, db) := rfl

@[simp] theorem result_raise (error : ε) (db : σ) : (raise error : Session σ ε α).result db = .error error := rfl

@[simp] theorem result_read (query : σ → α) (db : σ) : (read query : Session σ ε α).result db = .ok (query db, db) := rfl

@[simp] theorem result_statement (run : σ → Except ε (α × σ)) (db : σ) : (statement run).result db = run db := by
  unfold result statement
  cases run db <;> rfl

theorem bind_apply (s : Session σ ε α) (f : α → Session σ ε β) (db : σ) : (s >>= f) db =
    match s db with
    | (.ok a, db') => f a db'
    | (.error e, db') => (.error e, db') := rfl

/-- What an operation answers is what its steps answer one after the other. -/
@[simp] theorem result_bind (s : Session σ ε α) (f : α → Session σ ε β) (db : σ) :
    (s >>= f).result db = (s.result db).bind fun next => (f next.1).result next.2 := by
  simp only [result, bind_apply]
  cases hs : s db with
  | mk answer db' => cases answer <;> rfl

@[simp] theorem result_ite (c : Prop) [Decidable c] (s t : Session σ ε α) (db : σ) :
    (if c then s else t : Session σ ε α).result db = if c then s.result db else t.result db := by
  split <;> rfl

/-- A transaction by what its operation answers. -/
theorem transaction_eq (s : Session σ ε α) (db : σ) : s.transaction db =
    match s.result db with
    | .ok (a, db') => (.ok a, db')
    | .error e => (.error e, db) := by
  unfold transaction result
  rcases s db with ⟨_ | _, _⟩ <;> rfl

/-! ## Atomicity -/

/-- Every answer in `Q` leaves the database as it was. -/
def Keeps (Q : α → Prop) (s : Session σ ε α) : Prop := ∀ db a db', s.result db = .ok (a, db') → Q a → db' = db

/-- No answer is in `Q`. -/
def Avoids (Q : α → Prop) (s : Session σ ε α) : Prop := ∀ db a db', s.result db = .ok (a, db') → ¬ Q a

variable {Q : α → Prop}

theorem Avoids.keeps {s : Session σ ε α} (h : s.Avoids Q) : s.Keeps Q := fun db a db' hs hq => absurd hq (h db a db' hs)

theorem keeps_pure (a : α) : (pure a : Session σ ε α).Keeps Q := by
  intro db a' db' h _
  cases h
  rfl

theorem avoids_pure {a : α} (h : ¬ Q a) : (pure a : Session σ ε α).Avoids Q := by
  intro db a' db' hs
  cases hs
  exact h

theorem avoids_raise (error : ε) : (raise error : Session σ ε α).Avoids Q := by
  intro db a db' h
  cases h

theorem Avoids.bind {s : Session σ ε β} {f : β → Session σ ε α} (h : ∀ b, (f b).Avoids Q) : (s >>= f).Avoids Q := by
  intro db a db' hs
  rw [result_bind] at hs
  cases hnext : s.result db with
  | error e =>
    rw [hnext] at hs
    cases hs
  | ok next =>
    rw [hnext] at hs
    exact h next.1 next.2 a db' hs

theorem Avoids.ite {c : Prop} [Decidable c] {s t : Session σ ε α} (hs : s.Avoids Q) (ht : t.Avoids Q) :
    (if c then s else t : Session σ ε α).Avoids Q := by
  split
  · exact hs
  · exact ht

/-- A query decides which operation follows. -/
theorem Keeps.read {query : σ → β} {f : β → Session σ ε α} (h : ∀ b, (f b).Keeps Q) :
    (Session.read query >>= f).Keeps Q := by
  intro db a db' hs
  rw [result_bind, result_read] at hs
  exact h _ db a db' hs

theorem Keeps.ite {c : Prop} [Decidable c] {s t : Session σ ε α} (hs : s.Keeps Q) (ht : t.Keeps Q) :
    (if c then s else t : Session σ ε α).Keeps Q := by
  split
  · exact hs
  · exact ht

/-- A transaction that throws, or answers in `Q`, changes nothing. -/
theorem Keeps.transaction {s : Session σ ε α} (h : s.Keeps Q) {db db' : σ} {answer : Except ε α}
    (hs : s.transaction db = (answer, db')) (hanswer : ∀ a, answer = .ok a → Q a) : db' = db := by
  rw [transaction_eq] at hs
  cases hresult : s.result db with
  | error e =>
    rw [hresult] at hs
    cases hs
    rfl
  | ok next =>
    rw [hresult] at hs
    cases hs
    exact h db next.1 next.2 hresult (hanswer next.1 rfl)

end Session
end Relational
