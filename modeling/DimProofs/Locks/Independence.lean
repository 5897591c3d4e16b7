/-
Locks of different requests are independent where their files are: each lock has an owner record, a guard and the
staging files of its calls, and a call touches no others, unless the lock has the same name, or is swept because its
name begins with the stem of another's staging files.
-/
import DimProofs.Locks.Attempt
import DimProofs.Locks.System

namespace Dim.Locks

open Effectful Relation

/-- The files of a lock. -/
inductive Belongs (request : Request) : FileName → Prop
  | owner : Belongs request (ownerFile request.name)
  | guard : Belongs request (guardFile request.name)
  | staging {nonce : Nonce} (h : validNonce nonce = true) : Belongs request (stagingFile request.name nonce)

/-- The name of one lock is not that of the other, nor begins like the other's staging files. -/
structure Separate (r r' : Request) : Prop where
  names : r.name ≠ r'.name
  left : ¬ stagingStem r.name <+: r'.name
  right : ¬ stagingStem r'.name <+: r.name

/-! ## Names -/

section Names

variable {α : Type} {a b : List Char} {nonce nonce' : Nonce}

/-- A word whose last letter is not in what follows a text begins that text. -/
theorem prefix_of_prefix_append {word text rest : List α} {last : α} (h : word ++ [last] <+: text ++ rest)
    (hlast : last ∉ rest) : word ++ [last] <+: text := by
  rcases List.prefix_or_prefix_of_prefix h (List.prefix_append text rest) with hword | ⟨more, hmore⟩
  · exact hword
  · rcases more.eq_nil_or_concat with rfl | ⟨more, c, rfl⟩
    · rw [List.append_nil] at hmore
      exact hmore ▸ List.prefix_refl _
    · rw [← hmore, List.prefix_append_right_inj] at h
      obtain rfl : c = last := by
        have hend := congrArg List.getLast? hmore
        simpa [← List.append_assoc] using hend
      exact absurd (h.mem (by simp)) hlast

theorem ownerFile_inj : ownerFile a = ownerFile b ↔ a = b := List.append_left_inj _

theorem guardFile_inj : guardFile a = guardFile b ↔ a = b := List.append_left_inj _

theorem dot_notMem (h : validNonce nonce = true) : '.' ∉ nonce := by
  rw [validNonce, Bool.and_eq_true, List.all_eq_true] at h
  exact fun hdot => by simpa [Lifecycle.idChar, Pattern.alphanumeric, Pattern.upper, Pattern.lower, Pattern.digit,
    Pattern.within] using h.2 _ hdot

theorem length_nonce (h : validNonce nonce = true) : nonce.length = 43 := by
  rw [validNonce, Bool.and_eq_true] at h
  exact of_decide_eq_true h.1

/-- A staging file ends in no suffix with a dot in it. -/
theorem stagingFile_ne {suffix : List Char} (h : validNonce nonce = true) (hdot : '.' ∈ suffix)
    (hlength : suffix.length ≤ 43) : stagingFile a nonce ≠ b ++ suffix := by
  intro heq
  have hends : (nonce.reverse ++ (stagingStem a).reverse).take suffix.length = suffix.reverse := by
    have hreverse := congrArg List.reverse heq
    rw [stagingFile, List.reverse_append, List.reverse_append] at hreverse
    rw [hreverse, List.take_left' (List.length_reverse)]
  rw [List.take_append_of_le_length (by rw [List.length_reverse, length_nonce h]; exact hlength)] at hends
  have hmem : '.' ∈ nonce.reverse.take suffix.length := hends ▸ List.mem_reverse.mpr hdot
  exact dot_notMem h (List.mem_reverse.mp (List.mem_of_mem_take hmem))

theorem stagingStem_inj : stagingStem a = stagingStem b ↔ a = b := (List.append_left_inj _).trans ownerFile_inj

theorem stagingFile_inj (h : validNonce nonce = true) (h' : validNonce nonce' = true) :
    stagingFile a nonce = stagingFile b nonce' ↔ a = b ∧ nonce = nonce' := by
  constructor
  · intro heq
    have hparts := List.append_inj' heq ((length_nonce h).trans (length_nonce h').symm)
    exact ⟨stagingStem_inj.mp hparts.1, hparts.2⟩
  · rintro ⟨rfl, rfl⟩
    rfl

/-- A stem ends with a hyphen. -/
theorem stagingStem_eq : stagingStem a = (a ++ ".lock.tmp".toList) ++ ['-'] := by
  simp [stagingStem, ownerFile]

theorem stem_ownerFile (h : stagingStem a <+: ownerFile b) : stagingStem a <+: b := by
  rw [stagingStem_eq] at h ⊢
  exact prefix_of_prefix_append h (by decide)

theorem stem_guardFile (h : stagingStem a <+: guardFile b) : stagingStem a <+: b := by
  rw [stagingStem_eq] at h ⊢
  exact prefix_of_prefix_append h (by decide)

/-- The stem of a lock does not end within the nonce of another's staging file. -/
theorem stem_nonce {part : List Char} (hpart : '.' ∉ part) (h : stagingStem a = stagingStem b ++ part) : a = b := by
  have hreverse := congrArg List.reverse h
  simp only [stagingStem, ownerFile, List.reverse_append] at hreverse
  have hdot : '.' ∉ part.reverse := fun hmem => hpart (List.mem_reverse.mp hmem)
  generalize part.reverse = letters at hreverse hdot
  rcases letters with _ | ⟨_, _ | ⟨_, _ | ⟨_, _ | ⟨_, _ | ⟨c, _⟩⟩⟩⟩⟩
  · simpa using hreverse
  · simp at hreverse
  · simp at hreverse
  · simp at hreverse
  · simp at hreverse
  · simp at hreverse
    obtain ⟨-, -, -, -, rfl, -⟩ := hreverse
    exact absurd (by simp) hdot

theorem stem_stagingFile (hnonce : validNonce nonce = true) (h : stagingStem a <+: stagingFile b nonce) :
    a = b ∨ stagingStem a <+: b := by
  rcases List.prefix_or_prefix_of_prefix h (List.prefix_append (stagingStem b) nonce) with hstem | ⟨part, hpart⟩
  · rcases hstem with ⟨rest, hrest⟩
    by_cases hempty : rest = []
    · subst rest
      rw [List.append_nil] at hrest
      exact .inl (stagingStem_inj.mp hrest)
    · refine .inr ?_
      have hword : stagingStem a <+: b ++ ".lock.tmp".toList := by
        rw [stagingStem_eq (a := b), ← List.dropLast_append_getLast hempty, ← List.append_assoc] at hrest
        exact ⟨rest.dropLast, (List.append_inj' hrest rfl).1⟩
      rw [stagingStem_eq] at hword ⊢
      exact prefix_of_prefix_append hword (by decide)
  · refine .inl (stem_nonce (fun hdot => ?_) hpart.symm)
    rw [← hpart, stagingFile, List.prefix_append_right_inj] at h
    exact dot_notMem hnonce (h.mem hdot)

/-- What a call of one lock has to do with the files of another. -/
theorem within_belongs {op : Op} {r : Request} {e : Effect} {file : FileName} (hnonce : validNonce op.call.nonce = true)
    (he : Within op e) (hfile : file ∈ e.files) (h : Belongs r file) :
    op.request.name = r.name ∨ stagingStem op.request.name <+: r.name := by
  have hdots : '.' ∈ ".lock".toList ∧ ".lock".toList.length ≤ 43 := by decide
  have hdots' : '.' ∈ ".guard".toList ∧ ".guard".toList.length ≤ 43 := by decide
  have howner : file = ownerFile op.request.name → op.request.name = r.name := by
    rintro rfl
    generalize hother : ownerFile op.request.name = other at h
    cases h with
    | owner => exact ownerFile_inj.mp hother
    | guard => exact absurd hother ownerFile_ne_guardFile
    | staging hvalid => exact absurd hother.symm (stagingFile_ne hvalid hdots.1 hdots.2)
  have hguard : file = guardFile op.request.name → op.request.name = r.name := by
    rintro rfl
    generalize hother : guardFile op.request.name = other at h
    cases h with
    | owner => exact absurd hother.symm ownerFile_ne_guardFile
    | guard => exact guardFile_inj.mp hother
    | staging hvalid => exact absurd hother.symm (stagingFile_ne hvalid hdots'.1 hdots'.2)
  have hstaging : file = stagingFile op.request.name op.call.nonce → op.request.name = r.name := by
    rintro rfl
    generalize hother : stagingFile op.request.name op.call.nonce = other at h
    cases h with
    | owner => exact absurd hother (stagingFile_ne hnonce hdots.1 hdots.2)
    | guard => exact absurd hother (stagingFile_ne hnonce hdots'.1 hdots'.2)
    | staging hvalid => exact ((stagingFile_inj hnonce hvalid).mp hother).1
  cases he with
  | quiet he =>
    cases he with
    | sweep hstem =>
      obtain rfl := List.mem_singleton.mp hfile
      cases h with
      | owner => exact .inr (stem_ownerFile hstem)
      | guard => exact .inr (stem_guardFile hstem)
      | staging hvalid => exact stem_stagingFile hvalid hstem
    | openGuard => exact .inl (hguard (List.mem_singleton.mp hfile))
    | closeGuard => exact .inl (hguard (List.mem_singleton.mp hfile))
    | create => exact .inl (hstaging (List.mem_singleton.mp hfile))
    | write => exact .inl (hstaging (List.mem_singleton.mp hfile))
    | sync => exact .inl (hstaging (List.mem_singleton.mp hfile))
    | close => exact .inl (hstaging (List.mem_singleton.mp hfile))
    | readFile => exact .inl (howner (List.mem_singleton.mp hfile))
    | _ => cases hfile
  | flock => exact .inl (hguard (List.mem_singleton.mp hfile))
  | rename =>
    rcases List.mem_cons.mp hfile with heq | heq
    · exact .inl (hstaging heq)
    · exact .inl (howner (List.mem_singleton.mp heq))
  | removeOwner => exact .inl (howner (List.mem_singleton.mp hfile))
  | releaseGuard => cases hfile
  | activate => cases hfile
  | deactivate => cases hfile

end Names

/-! ## What a step leaves -/

section Effects

variable {e : Effect} {w w' : World} {a : Answer e}

variable {file other : FileName} {o : Owner}

theorem lookup_touch (h : (w.touch file).lookup other = some (.owner o)) :
    w.lookup other = some (.owner o) := by
  rw [World.touch] at h
  split at h
  · exact h
  · rw [World.lookup_put] at h
    split at h
    · cases h
    · exact h

theorem lookup_write {content : Content} (h : (w.write file content).lookup other = some (.owner o)) :
    w.lookup other = some (.owner o) ∨ other = file ∧ content = .owner o := by
  rw [World.write] at h
  split at h
  · rw [World.lookup_put] at h
    split at h
    · rename_i heq
      exact .inr ⟨heq, Option.some.inj h⟩
    · exact .inl h
  · exact .inl h

theorem lookup_remove (h : (w.remove file).lookup other = some (.owner o)) :
    w.lookup other = some (.owner o) := by
  rw [World.lookup_remove] at h
  split at h
  · cases h
  · exact h

theorem lookup_rename {source target : FileName}
    (h : (w.rename source target).lookup other = some (.owner o)) :
    w.lookup other = some (.owner o) ∨ other = target ∧ w.lookup source = some (.owner o) := by
  rw [World.rename] at h
  split at h
  · rename_i content hsource
    rw [World.lookup_put] at h
    split at h
    · rename_i heq
      exact .inr ⟨heq, by rw [hsource, Option.some.inj h]⟩
    · exact .inl (lookup_remove h)
  · exact .inl h

theorem mem_guards_remove {c : Call} (h : (other, c) ∈ (w.remove file).guards) :
    (other, c) ∈ w.guards :=
  (List.mem_filter.mp h).1

theorem mem_guards_rename {source target : FileName} {c : Call} (h : (other, c) ∈ (w.rename source target).guards) :
    (other, c) ∈ w.guards := by
  rw [World.rename] at h
  split at h
  · exact mem_guards_remove h
  · exact h

/-- A guard is taken by `flock` alone. -/
theorem guards_of_performs (h : performs e w a w') {c : Call} (hmem : (file, c) ∈ w'.guards) :
    (file, c) ∈ w.guards ∨ e = .flock file c := by
  rcases h with hstep | hfails
  · obtain ⟨-, rfl⟩ := Prod.mk.inj hstep
    cases e with
    | operate operation =>
      refine .inl ?_
      simp only at hmem
      split at hmem
      · cases operation <;> first | exact hmem | simpa [World.failed] using hmem
      · cases operation with
        | remove => exact mem_guards_remove hmem
        | removeOwner => exact mem_guards_remove hmem
        | rename => exact mem_guards_rename hmem
        | openGuard => simpa [World.operated] using hmem
        | writeFile => simpa [World.operated] using hmem
        | _ => exact hmem
    | flock file' c' =>
      simp only at hmem
      split at hmem
      · exact .inl hmem
      · rcases List.mem_cons.mp hmem with heq | hmem
        · obtain ⟨rfl, rfl⟩ := Prod.mk.inj heq
          exact .inr rfl
        · exact .inl (by simpa using hmem)
    | releaseGuard => exact .inl (List.mem_filter.mp hmem).1
    | readStat pid =>
      refine .inl ?_
      simp only at hmem
      split at hmem <;> exact hmem
    | readFile file' =>
      refine .inl ?_
      simp only at hmem
      split at hmem <;> exact hmem
    | _ => exact .inl hmem
  · refine .inl ?_
    cases hfails with
    | operation operation code => cases operation <;> first | exact hmem | simpa [World.failed] using hmem
    | guard => exact (List.mem_filter.mp hmem).1
    | _ => exact hmem

/-- An owner record is written or renamed to where it stands. -/
theorem record_of_performs (h : performs e w a w') (hfile : w'.lookup file = some (.owner o)) :
    w.lookup file = some (.owner o) ∨ e = .operate (.writeFile file o) ∨
      ∃ source, e = .operate (.rename source file) ∧ w.lookup source = some (.owner o) := by
  have hfailed : ∀ operation, (w.failed operation).lookup file = some (.owner o) → w.lookup file = some (.owner o) := by
    intro operation h
    cases operation with
    | writeFile =>
      rcases lookup_write h with h | ⟨-, h⟩
      · exact h
      · cases h
    | _ => exact h
  rcases h with hstep | hfails
  · obtain ⟨-, rfl⟩ := Prod.mk.inj hstep
    cases e with
    | operate operation =>
      simp only at hfile
      split at hfile
      · exact .inl (hfailed _ hfile)
      · cases operation with
        | openGuard => exact .inl (lookup_touch hfile)
        | remove => exact .inl (lookup_remove hfile)
        | removeOwner => exact .inl (lookup_remove hfile)
        | create file' =>
          rw [World.operated, World.lookup_put] at hfile
          split at hfile
          · cases hfile
          · exact .inl hfile
        | writeFile file' owner =>
          rcases lookup_write hfile with h | ⟨rfl, h⟩
          · exact .inl h
          · cases h
            exact .inr (.inl rfl)
        | rename source target =>
          rcases lookup_rename hfile with h | ⟨rfl, h⟩
          · exact .inl h
          · exact .inr (.inr ⟨source, rfl, h⟩)
        | _ => exact .inl hfile
    | flock file' c' =>
      simp only at hfile
      split at hfile
      · exact .inl hfile
      · exact .inl (lookup_touch hfile)
    | readStat pid =>
      refine .inl ?_
      simp only at hfile
      split at hfile <;> exact hfile
    | readFile file' =>
      refine .inl ?_
      simp only at hfile
      split at hfile <;> exact hfile
    | _ => exact .inl hfile
  · refine .inl ?_
    cases hfails with
    | operation operation code => exact hfailed _ hfile
    | _ => exact hfile

end Effects

/-! ## Every run -/

section Runs

variable {P : Request → Prop} {s s' : System}

/-- Guards and records are those of calls that began, and stand where their requests put them. -/
structure Kept (P : Request → Prop) (s : System) : Prop where
  begun : ∀ op ∈ s.begun, P op.request ∧ validNonce op.call.nonce = true
  running : ∀ c ∈ s.running, c.op ∈ s.begun ∧ c.rest.Every (Within c.op)
  guards : ∀ file c, (file, c) ∈ s.world.guards → ∃ op ∈ s.begun, op.call = c ∧ file = guardFile op.request.name
  records : ∀ file o, s.world.lookup file = some (.owner o) → ∃ op ∈ s.begun, op.call = o.call ∧
    (file = ownerFile op.request.name ∨ file = stagingFile op.request.name op.call.nonce)

theorem kept_initial (bootId : String) (processes : List (Nat × String)) : Kept P (System.initial bootId processes) where
  begun := nofun
  running := nofun
  guards := nofun
  records := nofun

/-- An effect of a call leaves guards and records where they belong. -/
theorem Kept.performed {w w' : World} {before after : List Running} {begun : List Op} {op : Op} {e : Effect} {a : Answer e}
    {next : Answer e → Lock Unit} (hs : Kept P ⟨w, before ++ ⟨op, .perform e next⟩ :: after, begun⟩)
    (h : performs e w a w') :
    Kept P ⟨w', before ++ ⟨op, next a⟩ :: after, begun⟩ := by
  have hop : op ∈ begun ∧ Within op e ∧ ∀ a, (next a).Every (Within op) := hs.running ⟨op, .perform e next⟩ (by simp)
  refine ⟨hs.begun, fun c hc => ?_, fun file c hc => ?_, fun file o hfile => ?_⟩
  · rcases List.mem_append.mp hc with hc | hc
    · exact hs.running c (List.mem_append_left _ hc)
    · rcases List.mem_cons.mp hc with rfl | hc
      · exact ⟨hop.1, hop.2.2 a⟩
      · exact hs.running c (List.mem_append_right _ (List.mem_cons_of_mem _ hc))
  · rcases guards_of_performs h hc with hc | rfl
    · exact hs.guards file c hc
    · cases hop.2.1 with
      | quiet he => cases he
      | flock => exact ⟨op, hop.1, rfl, rfl⟩
  · rcases record_of_performs h hfile with hold | rfl | ⟨source, rfl, hsource⟩
    · exact hs.records file o hold
    · obtain ⟨⟨⟩⟩ | _ := hop.2.1
      exact ⟨op, hop.1, ‹o.call = op.call›.symm, .inr rfl⟩
    · obtain ⟨⟨⟩⟩ | _ := hop.2.1
      obtain ⟨op', hop', hcall, hwhere⟩ := hs.records _ o hsource
      have hvalid := (hs.begun op hop.1).2
      rcases hwhere with heq | heq
      · exact absurd heq (stagingFile_ne hvalid (by decide) (by decide))
      · obtain ⟨hname, -⟩ := (stagingFile_inj hvalid (hs.begun op' hop').2).mp heq
        exact ⟨op', hop', hcall, .inl (by rw [hname])⟩

theorem Kept.step (hs : Kept P s) (h : Step P s s') : Kept P s' := by
  cases h with
  | @began w running begun op hrequest _ hnonce =>
    refine ⟨fun op' hop' => ?_, fun c hc => ?_, fun file c hc => ?_, fun file o hfile => ?_⟩
    · rcases List.mem_append.mp hop' with hop' | hop'
      · exact hs.begun op' hop'
      · obtain rfl := List.mem_singleton.mp hop'
        exact ⟨hrequest, hnonce⟩
    · rcases List.mem_append.mp hc with hc | hc
      · exact ⟨List.mem_append_left _ (hs.running c hc).1, (hs.running c hc).2⟩
      · obtain rfl := List.mem_singleton.mp hc
        exact ⟨by simp, every_program op⟩
    · obtain ⟨op', hop', hrest⟩ := hs.guards file c hc
      exact ⟨op', List.mem_append_left _ hop', hrest⟩
    · obtain ⟨op', hop', hrest⟩ := hs.records file o hfile
      exact ⟨op', List.mem_append_left _ hop', hrest⟩
  | performed h => exact hs.performed h
  | started => exact ⟨hs.begun, hs.running, hs.guards, hs.records⟩
  | died =>
    refine ⟨hs.begun, fun c hc => hs.running c (List.mem_filter.mp hc).1, fun file c hc => ?_, hs.records⟩
    exact hs.guards file c (List.mem_filter.mp hc).1
  | booted => exact ⟨hs.begun, nofun, nofun, hs.records⟩

theorem kept_of_reachable (h : Reachable P s) : Kept P s := by
  obtain ⟨bootId, processes, hs⟩ := h
  induction hs with
  | refl => exact kept_initial bootId processes
  | tail _ hstep ih => exact ih.step hstep

end Runs

/-- What the calls for `r` leave to a lock `r'`: no effect that comes next touches a file of it, and only calls for `r'`
hold its guard or stand in its owner record. -/
structure Independent (r r' : Request) (s : System) : Prop where
  untouched : ∀ c ∈ s.running, c.op.request = r → ∀ e next, c.rest = .perform e next → ∀ file, Belongs r' file →
    file ∉ e.files
  guarded : ∀ c, s.world.guard (guardFile r'.name) = some c → ∃ op ∈ s.begun, op.request = r' ∧ op.call = c
  owned : ∀ o, s.world.lookup (ownerFile r'.name) = some (.owner o) → ∃ op ∈ s.begun, op.request = r' ∧ op.call = o.call

theorem independent_of_separate {r r' : Request} (h : Separate r r') {s : System}
    (hs : Reachable (fun request => request = r ∨ request = r') s) : Independent r r' s := by
  have hkept := kept_of_reachable hs
  have hrequest : ∀ op ∈ s.begun, op.request.name = r'.name → op.request = r' := by
    intro op hop hname
    rcases (hkept.begun op hop).1 with hr | hr
    · exact absurd (hr ▸ hname) h.names
    · exact hr
  refine ⟨fun c hc hr e next hrest file hfile hmem => ?_, fun c hguard => ?_, fun o howner => ?_⟩
  · have hc' := hkept.running c hc
    rw [hrest] at hc'
    rcases within_belongs (hkept.begun _ hc'.1).2 hc'.2.1 hmem hfile with hname | hstem
    · exact h.names (hr ▸ hname)
    · exact h.left (hr ▸ hstem)
  · obtain ⟨op, hop, hcall, hfile⟩ := hkept.guards _ c (Directory.mem_of_lookup hguard)
    exact ⟨op, hop, hrequest op hop (guardFile_inj.mp hfile).symm, hcall⟩
  · obtain ⟨op, hop, hcall, hfile | hfile⟩ := hkept.records _ o howner
    · exact ⟨op, hop, hrequest op hop (ownerFile_inj.mp hfile).symm, hcall⟩
    · exact absurd hfile.symm (stagingFile_ne (hkept.begun op hop).2 (by decide) (by decide))

/-! ## Collisions -/

section Collisions

variable {P : Request → Prop} {r r' : Request} {w : World} {c : Call} {startTicks : String}

theorem reaches_of_exec {α : Type} {p : Lock α} {value : α} {w' : World} (h : p.exec step w = (.ok value, w')) :
    Reaches performs p w (pure value) w' := by
  have hr := reaches_exec performs_step p w
  rw [h] at hr
  exact hr

/-- Every acquisition opens its guard. -/
theorem comes_openGuard (rounds : Nat) (hboot : canonicalUuid w.bootId = true)
    (hprocess : w.processes.lookup c.pid = some startTicks) :
    Comes performs (acquireLifecycleLock r c rounds) w (.operate (.openGuard (guardFile r.name))) w := by
  refine Comes.after ?_ (reaches_of_exec (exec_currentProcessIdentity hboot hprocess))
  refine Comes.after ?_ (reaches_of_exec (exec_operate rfl))
  rw [attempts.eq_def]
  exact comes_effect.inBind

/-- An acquisition of a lock that was never used comes to remove the first listed entry with its stem. -/
theorem comes_sweep {entry : FileName} {content : Content} {files : List (FileName × Content)} (rounds : Nat)
    (hboot : canonicalUuid w.bootId = true) (hprocess : w.processes.lookup c.pid = some startTicks)
    (hfree : w.guard (guardFile r.name) = none) (howner : w.lookup (ownerFile r.name) = none)
    (hfiles : (w.guarded r.name c).files = (entry, content) :: files) (hstem : stagingStem r.name <+: entry) :
    Comes performs (acquireLifecycleLock r c rounds) w (.operate (.remove entry)) (w.guarded r.name c) := by
  have hlisted : Reaches performs (Locks.call .readdir >>= answered) (w.guarded r.name c) (pure (entry :: files.map (·.1)))
      (w.guarded r.name c) := by
    refine reaches_of_exec ?_
    show (Except.ok ((w.guarded r.name c).files.map (·.1)), _) = _
    rw [hfiles]
    rfl
  refine Comes.after ?_ (reaches_of_exec (exec_currentProcessIdentity hboot hprocess))
  refine Comes.after ?_ (reaches_of_exec (exec_operate rfl))
  rw [attempts.eq_def]
  refine Comes.inBind (Comes.after ?_ (reaches_of_exec (exec_tryAcquireKernelGuard hfree)))
  rw [if_pos rfl]
  refine Comes.inBind (Comes.inCatch (Comes.after ?_ (reaches_of_exec exec_readOwner)))
  have hmissing : (w.guarded r.name c).lookup (ownerFile r.name) = none := World.lookup_guarded.trans howner
  dsimp only [World.operated]
  rw [← World.guarded, hmissing]
  refine Comes.inBind (Comes.after ?_ hlisted)
  refine Comes.inBind ?_
  rw [removeEntries, if_pos (List.isPrefixOf_iff_prefix.mpr hstem)]
  exact comes_effect.inBind

/-- A run in which an effect of `r` touches a file of `r'`. -/
theorem not_independent (op : Op) (hop : op.request = r) {e : Effect} {file : FileName} {w w' : World}
    (hcomes : Comes performs op.program w e w') (hfile : Belongs r' file) (hmem : file ∈ e.files) {begun : List Op}
    {before : List Running} (hs : Reachable P ⟨w, before ++ ⟨op, op.program⟩ :: [], begun⟩) :
    ∃ s, Reachable P s ∧ ¬ Independent r r' s := by
  obtain ⟨next, hnext⟩ := hcomes
  obtain ⟨bootId, processes, hsteps⟩ := hs
  refine ⟨_, ⟨bootId, processes, hsteps.trans (steps_of_reaches hnext)⟩, fun hindependent => ?_⟩
  exact hindependent.untouched ⟨op, .perform e next⟩ (by simp) hop e next rfl file hfile hmem

namespace Sample

def bootId : String := "00000000-0000-0000-0000-000000000000"

/-- One process, with a nonce for each of its calls. -/
def caller (letter : Char) : Call := ⟨1, List.replicate 43 letter⟩

theorem canonical_bootId : canonicalUuid bootId = true := by decide +kernel

theorem validNonce_caller {letter : Char} (h : Lifecycle.idChar letter = true) :
    validNonce (caller letter).nonce = true := by
  simp [validNonce, caller, h]

def acquisition (request : Request) (letter : Char) : Op := ⟨request, caller letter, .acquire 0⟩

end Sample

open Sample

theorem reachable_began {request : Request} (hP : P request) (hadmitted : request.admitted = true) (letter : Char)
    (hletter : Lifecycle.idChar letter = true) {w : World} {running : List Running} {begun : List Op}
    (hs : Reachable P ⟨w, running, begun⟩) :
    Reachable P ⟨w, running ++ [⟨acquisition request letter, (acquisition request letter).program⟩],
      begun ++ [acquisition request letter]⟩ := by
  obtain ⟨bootId, processes, hsteps⟩ := hs
  exact ⟨bootId, processes, hsteps.tail (.began hP hadmitted (validNonce_caller hletter))⟩

theorem reachable_initial : Reachable P (System.initial bootId [(1, "1")]) := ⟨_, _, .refl⟩

/-- Locks of one name have one guard. -/
theorem collides_of_name (r r' : Request) (hP : P r) (hadmitted : r.admitted = true) (hname : r.name = r'.name) :
    ∃ s, Reachable P s ∧ ¬ Independent r r' s := by
  refine not_independent (acquisition r 'a') rfl (comes_openGuard 0 canonical_bootId rfl) .guard ?_
    (reachable_began hP hadmitted 'a' rfl reachable_initial)
  show guardFile r'.name ∈ [guardFile r.name]
  rw [hname]
  exact List.mem_singleton_self _

/-- The sweep of one lock takes the guard of another whose name begins with its stem. -/
theorem collides_of_stem (hP : P r) (hP' : P r') (hadmitted : r.admitted = true) (hadmitted' : r'.admitted = true)
    (hstem : stagingStem r.name <+: r'.name) : ∃ s, Reachable P s ∧ ¬ Independent r r' s := by
  obtain ⟨next, hnext⟩ := comes_openGuard (r := r') (c := caller 'b') (w := ⟨[], [], [], bootId, [(1, "1")]⟩) 0
    canonical_bootId rfl
  have hopened : Reachable P ⟨⟨[(guardFile r'.name, .text)], [], [], bootId, [(1, "1")]⟩,
      [⟨acquisition r' 'b', next (.ok ())⟩], [acquisition r' 'b']⟩ := by
    obtain ⟨_, _, hsteps⟩ := reachable_began hP' hadmitted' 'b' rfl (reachable_initial (P := P))
    refine ⟨_, _, (hsteps.trans (@steps_of_reaches P [] [] _ _ _ _ _ _ hnext)).tail ?_⟩
    exact @Step.performed P _ _ [] [] _ _ _ _ _ (.inl rfl)
  have hguards : guardFile r.name ≠ guardFile r'.name := by
    intro heq
    have hlength := hstem.length_le
    rw [guardFile_inj.mp heq] at hlength
    rw [stagingStem_length] at hlength
    omega
  let w : World := ⟨[(guardFile r'.name, .text)], [], [], bootId, [(1, "1")]⟩
  have hmissing : w.lookup (guardFile r.name) = none := by
    rw [World.lookup, List.lookup_cons, beq_false_of_ne hguards]
    rfl
  have htouched : w.touch (guardFile r.name) =
      { w with files := [(guardFile r'.name, .text), (guardFile r.name, .text)] } := by
    rw [World.touch, hmissing, if_neg (by simp), World.put, Directory.put, Directory.remove, List.filter_cons_of_pos]
    · rfl
    · simpa using hguards.symm
  have hfiles : (w.guarded r.name (caller 'a')).files = (guardFile r'.name, .text) :: [(guardFile r.name, .text)] := by
    rw [World.guarded, World.locked, htouched, World.touch, World.lookup, List.lookup_cons, beq_false_of_ne hguards]
    simp
  have howner : w.lookup (ownerFile r.name) = none := by
    rw [World.lookup, List.lookup_cons, beq_false_of_ne ownerFile_ne_guardFile]
    rfl
  exact not_independent (acquisition r 'a') rfl (comes_sweep 0 canonical_bootId rfl rfl howner hfiles
    (hstem.trans (List.prefix_append _ _))) .guard (List.mem_singleton_self _) (reachable_began hP hadmitted 'a' rfl hopened)

end Collisions

/-- Locks are independent exactly when neither has the name of the other, nor a name that begins with the other's
name and `.lock.tmp-`. -/
theorem requests_independent {r r' : Request} (hr : r.admitted = true) (hr' : r'.admitted = true) :
    (∀ s, Reachable (fun request => request = r ∨ request = r') s → Independent r r' s ∧ Independent r' r s) ↔
      Separate r r' := by
  constructor
  · intro h
    refine ⟨fun hname => ?_, fun hstem => ?_, fun hstem => ?_⟩
    · obtain ⟨s, hs, hnot⟩ := collides_of_name (P := fun request => request = r ∨ request = r') r r' (.inl rfl) hr hname
      exact hnot (h s hs).1
    · obtain ⟨s, hs, hnot⟩ := collides_of_stem (P := fun request => request = r ∨ request = r') (.inl rfl) (.inr rfl) hr
        hr' hstem
      exact hnot (h s hs).1
    · obtain ⟨s, hs, hnot⟩ := collides_of_stem (P := fun request => request = r ∨ request = r') (.inr rfl) (.inl rfl) hr'
        hr hstem
      exact hnot (h s hs).2
  · intro h s hs
    refine ⟨independent_of_separate h hs, independent_of_separate ⟨h.names.symm, h.right, h.left⟩ ?_⟩
    simpa only [or_comm] using hs

namespace Sample

/-- A Project and a workspace of one name. -/
theorem project_beside_workspace : Request.admitted (.project "a") = true ∧ Request.admitted (.workspace "a") = true ∧
    ∀ s, Reachable (fun request => request = .project "a" ∨ request = .workspace "a") s →
      Independent (.project "a") (.workspace "a") s ∧ Independent (.workspace "a") (.project "a") s := by
  have hproject : Request.admitted (.project "a") = true := by decide +kernel
  have hworkspace : Request.admitted (.workspace "a") = true := by decide +kernel
  refine ⟨hproject, hworkspace, (requests_independent hproject hworkspace).mpr ⟨?_, ?_, ?_⟩⟩
  · decide +kernel
  · decide +kernel
  · decide +kernel

/-- The reconciliation of `a-setup` and the setup of `a` use one lock. -/
theorem setup_blocks_reconciliation : ¬ ∀ r r' : Request, r ≠ r' → r.admitted = true → r'.admitted = true →
    ∀ s, Reachable (fun request => request = r ∨ request = r') s → Independent r r' s := by
  intro h
  have hadmitted : Request.admitted (.workspace "a-setup") = true := by decide +kernel
  obtain ⟨s, hs, hnot⟩ :=
    collides_of_name (P := fun request => request = .workspace "a-setup" ∨ request = .workspaceSetup "a")
    (.workspace "a-setup") (.workspaceSetup "a") (.inl rfl) hadmitted (by decide +kernel)
  exact hnot (h (.workspace "a-setup") (.workspaceSetup "a") (by decide) hadmitted (by decide +kernel) s hs)

end Sample

end Dim.Locks
