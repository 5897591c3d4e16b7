/-
What the checks of a set say: the conditions on its entries and its upstreams without the labels of their errors, and
the reading of a set's own value.
-/
import DimProofs.Lib.Table
import DimProofs.Repositories.Set

namespace Dim.Repositories

/-! ## Loops -/

theorem require_ok {condition : Bool} {message : Text} : require condition message = .ok () ↔ condition = true := by
  unfold require
  split
  · next h => exact ⟨fun _ => h, fun _ => rfl⟩
  · next h => exact ⟨nofun, fun hc => absurd hc h⟩

theorem then_ok {α : Type} {x : Except Failure Unit} {f : Unit → Except Failure α} {a : α} :
    x >>= f = .ok a ↔ x = .ok () ∧ f () = .ok a := by
  rw [Relational.bind_ok]
  exact ⟨fun ⟨_, h⟩ => h, fun h => ⟨(), h⟩⟩

theorem each_ok {α : Type} {f : α → Except Failure Unit} : ∀ {list : List α}, each f list = .ok () ↔ ∀ a ∈ list, f a = .ok ()
  | [] => ⟨nofun, fun _ => rfl⟩
  | a :: rest => by
    rw [each, then_ok, each_ok, List.forall_mem_cons]

theorem eachPair_ok {α : Type} {f : α → α → Except Failure Unit} : ∀ {list : List α},
    eachPair f list = .ok () ↔ list.Pairwise fun a b => f a b = .ok ()
  | [] => ⟨fun _ => .nil, fun _ => rfl⟩
  | a :: rest => by
    rw [eachPair, then_ok, each_ok, eachPair_ok, List.pairwise_cons]

theorem validateImports_ok {label upstream : Text} : ∀ {imports seen : List (Text × Text)},
    validateImports label upstream seen imports = .ok () ↔
      (imports.map Prod.snd).Nodup ∧ ∀ p ∈ imports, ∀ q ∈ seen, q.2 ≠ p.2
  | [], seen => ⟨fun _ => ⟨.nil, nofun⟩, fun _ => rfl⟩
  | (repoAlias, external) :: rest, seen => by
    unfold validateImports
    rw [List.map_cons, List.nodup_cons, List.forall_mem_cons]
    cases hfind : seen.find? (·.2 = external) with
    | some existing =>
      have hmem := List.mem_of_find?_eq_some hfind
      have hexternal : existing.2 = external := by simpa using List.find?_some hfind
      exact ⟨nofun, fun h => absurd hexternal (h.2.1 existing hmem)⟩
    | none =>
      have hnone : ∀ q ∈ seen, q.2 ≠ external := by simpa using hfind
      rw [validateImports_ok]
      constructor
      · rintro ⟨hnodup, hseen⟩
        refine ⟨⟨fun hmem => ?_, hnodup⟩, hnone, fun p hp q hq => hseen p hp q (List.mem_cons_of_mem _ hq)⟩
        obtain ⟨p, hp, hsame⟩ := List.mem_map.mp hmem
        exact hseen p hp _ List.mem_cons_self hsame.symm
      · rintro ⟨⟨hnew, hnodup⟩, -, hseen⟩
        refine ⟨hnodup, fun p hp q hq => ?_⟩
        rcases List.mem_cons.mp hq with rfl | hq
        · exact fun h => hnew (List.mem_map.mpr ⟨p, hp, h.symm⟩)
        · exact hseen p hp q hq

/-! ## The conditions -/

/-- What is required of an entry. -/
structure EntryShares (set : RepositorySet) (entry : Entry) : Prop where
  oneSource : entry.url = none ∨ entry.upstream = none
  alone : entry.upstream = none → entry.refPrefix = none ∧ entry.fallback = false
  found : ∀ upstream, entry.upstream = some upstream → set.findsUpstream upstream = true
  oneNamespace : ∀ upstream, entry.upstream = some upstream →
    countTrue [entry.refPrefix.isSome, entry.fallback, entry.hasImports] = 1

/-- No two prefixes overlap. -/
def Apart (a b : Text × Text) : Prop := startsWith a.2 b.2 = false ∧ startsWith b.2 a.2 = false

/-- What is required of the repositories of an upstream. -/
structure MembersShare (members : List (Text × Entry)) : Prop where
  unmixed : ¬ ((∃ member ∈ members, member.2.hasImports = true) ∧
    ∃ member ∈ members, member.2.refPrefix ≠ none ∨ member.2.fallback = true)
  oneFallback : (members.filter fun member => member.2.fallback).length ≤ 1
  apart : (prefixesOf members).Pairwise Apart
  importedOnce : ((importsOf members).map Prod.snd).Nodup

structure Shares (set : RepositorySet) : Prop where
  entries : ∀ member ∈ set.repositories.entries, EntryShares set member.2
  members : ∀ upstream ∈ set.upstreams.keys, MembersShare (set.members upstream)

theorem validateEntry_ok {set : RepositorySet} {label : Text} {member : Text × Entry} :
    validateEntry set label member = .ok () ↔ EntryShares set member.2 := by
  unfold validateEntry
  rw [then_ok, require_ok]
  simp only [Bool.or_eq_true, decide_eq_true_eq]
  cases hupstream : member.2.upstream with
  | none =>
    simp only [require_ok, Bool.and_eq_true, decide_eq_true_eq, Bool.not_eq_true']
    constructor
    · rintro ⟨hsource, halone⟩
      have hnever : ∀ upstream, member.2.upstream ≠ some upstream := fun upstream h => by
        rw [hupstream] at h
        cases h
      exact ⟨.inr hupstream, fun _ => halone, fun upstream h => absurd h (hnever upstream),
        fun upstream h => absurd h (hnever upstream)⟩
    · exact fun h => ⟨.inr trivial, h.alone hupstream⟩
  | some upstream =>
    simp only [then_ok, require_ok, decide_eq_true_eq]
    constructor
    · rintro ⟨hsource, hfound, hcount⟩
      refine ⟨?_, fun h => ?_, fun other h => ?_, fun other h => hcount⟩
      · exact hsource.imp_right nofun
      · rw [hupstream] at h
        cases h
      · rw [hupstream] at h
        exact Option.some.inj h ▸ hfound
    · intro h
      refine ⟨h.oneSource.imp_right fun hnone => ?_, h.found upstream hupstream, h.oneNamespace upstream hupstream⟩
      rw [hupstream] at hnone
      cases hnone

theorem validateUpstream_ok {set : RepositorySet} {label upstream : Text} :
    validateUpstream set label upstream = .ok () ↔ MembersShare (set.members upstream) := by
  unfold validateUpstream
  simp only [then_ok, require_ok, eachPair_ok, validateImports_ok]
  have hunmixed : (!((set.members upstream).any (fun member => member.2.hasImports) &&
      (set.members upstream).any fun member => member.2.refPrefix.isSome || member.2.fallback)) = true ↔
      ¬ ((∃ member ∈ set.members upstream, member.2.hasImports = true) ∧
        ∃ member ∈ set.members upstream, member.2.refPrefix ≠ none ∨ member.2.fallback = true) := by
    simp only [Bool.not_eq_true', ← Bool.not_eq_true, Bool.and_eq_true, List.any_eq_true, Bool.or_eq_true,
      Option.isSome_iff_ne_none]
  have hapart : ∀ a b : Text × Text, validateOverlap label a b = .ok () ↔ Apart a b := by
    intro a b
    rw [validateOverlap, require_ok, Apart, Bool.not_eq_true', Bool.or_eq_false_iff]
  rw [hunmixed]
  simp only [hapart, decide_eq_true_eq]
  constructor
  · rintro ⟨h₁, h₂, h₃, h₄, -⟩
    exact ⟨h₁, h₂, h₃, h₄⟩
  · exact fun h => ⟨h.unmixed, h.oneFallback, h.apart, h.importedOnce, nofun⟩

theorem validateSharedUpstreams_ok {set : RepositorySet} {label : Text} :
    validateSharedUpstreams set label = .ok () ↔ Shares set := by
  rw [validateSharedUpstreams, then_ok, each_ok, each_ok]
  simp only [validateEntry_ok, validateUpstream_ok]
  exact ⟨fun h => ⟨h.1, h.2⟩, fun h => ⟨h.entries, h.members⟩⟩

end Dim.Repositories
