/-
Relays of different targets: a call leaves every relay but that of its own port alone, so the relays of a set of targets
are independent exactly when no two of them have one port.
-/
import DimProofs.Controller.Relay
import DimProofs.Lib.Table

namespace Dim.Controller

open Relational

section Calls

variable {w : Workspace} {relays : Relays} {port port' : Nat} {endpoint : Endpoint}

/-- What a relay is after its script ran to the end. -/
theorem forwards_provisioned (relays : Relays) (port : Nat) (endpoint : Endpoint) :
    (ensureWorkspaceRelay .succeeded w port endpoint relays).2.forwards port = some endpoint := by
  rw [ensureWorkspaceRelay, Relays.forwards, if_pos]
  · exact Directory.lookup_put_self
  · dsimp only
    split
    · assumption
    · exact List.mem_cons_self

/-- A script touches no relay at another port. -/
theorem forwards_other (exec : Exec) (h : port' ≠ port) :
    (ensureWorkspaceRelay exec w port endpoint relays).2.forwards port' = relays.forwards port' := by
  cases exec with
  | succeeded =>
    have hlistens : port' ∈ (if port ∈ relays.listening then relays.listening else port :: relays.listening) ↔
        port' ∈ relays.listening := by
      split
      · exact Iff.rfl
      · simp [h]
    simp only [ensureWorkspaceRelay, Relays.forwards, hlistens, Directory.lookup_put_ne h]
  | refused => rfl
  | interrupted => simp only [ensureWorkspaceRelay, Relays.forwards, Directory.lookup_put_ne h]

/-- The relay of a plan is that of the target's port, and only targets with containers have one. -/
theorem relay_of_plan {d : Docker} {target : Target} {mode : Mode} {host fingerprint : String}
    (h : plan d w target mode = .ok ⟨host, fingerprint, some (port, endpoint)⟩) :
    port = relayPort target ∧ target.containers ≠ [] := by
  rw [plan] at h
  obtain ⟨_, -, h⟩ := bind_ok.mp h
  obtain ⟨outer, -, h⟩ := bind_ok.mp h
  rcases hcontainers : target.containers with _ | ⟨container, rest⟩ <;> rw [hcontainers] at h
  · cases h
  · obtain ⟨relay, -, h⟩ := bind_ok.mp h
    cases h
    exact ⟨rfl, nofun⟩

/-- What a call does, by its plan. -/
theorem after_cases (w : Workspace) (h : History) (c : Call) :
    h.after w c = h ∨ ∃ endpoint, c.target.containers ≠ [] ∧
      (h.after w c).relays = (ensureWorkspaceRelay c.docker.exec w (relayPort c.target) endpoint h.relays).2 ∧
      ((h.after w c).provisioned = Directory.put c.target endpoint h.provisioned ∧ c.docker.exec = .succeeded ∨
        (h.after w c).provisioned = h.provisioned ∧ c.docker.exec = .refused ∨
        (h.after w c).provisioned = Directory.remove c.target h.provisioned) := by
  rw [History.after, resolveWorkspaceTarget]
  rcases hplan : plan c.docker w c.target c.mode with message | ⟨host, fingerprint, _ | ⟨port, endpoint⟩⟩
  · exact .inl rfl
  · exact .inl rfl
  · refine .inr ⟨endpoint, ?_⟩
    obtain ⟨rfl, hcontainers⟩ := relay_of_plan hplan
    refine ⟨hcontainers, ?_⟩
    rcases hexec : c.docker.exec with _ | _ | _
    · exact ⟨rfl, .inl ⟨rfl, rfl⟩⟩
    · exact ⟨rfl, .inr (.inl ⟨rfl, rfl⟩)⟩
    · exact ⟨rfl, .inr (.inr rfl)⟩

end Calls

section Runs

variable {S : Set Target}

/-- The relays are kept, and are those of targets with containers. -/
structure Apart (S : Set Target) (h : History) : Prop where
  kept : h.Kept
  mem : ∀ target endpoint, h.provisioned.lookup target = some endpoint → target ∈ S ∧ target.containers ≠ []

theorem apart_nothing (S : Set Target) : Apart S ⟨⟨[], []⟩, []⟩ := by
  constructor
  · intro target endpoint h
    cases h
  · intro target endpoint h
    cases h

/-- Where no two targets have one port, a call keeps the relays. -/
theorem Apart.after (w : Workspace) {h' : History}
    (hports : ∀ t ∈ S, ∀ t' ∈ S, t.containers ≠ [] → t'.containers ≠ [] → relayPort t = relayPort t' → t = t')
    (h : Apart S h') {c : Call} (hc : c.target ∈ S) : Apart S (h'.after w c) := by
  rcases after_cases w h' c with heq | ⟨endpoint, hcontainers, hrelays, hprovisioned⟩
  · rw [heq]
    exact h
  · -- A relay of another target stays what it was.
    have hother : ∀ t e, t ≠ c.target → h'.provisioned.lookup t = some e →
        (h'.after w c).relays.forwards (relayPort t) = some e := by
      intro t e hne ht
      have hport : relayPort t ≠ relayPort c.target := fun heq =>
        hne (hports t (h.mem t e ht).1 c.target hc (h.mem t e ht).2 hcontainers heq)
      rw [hrelays, forwards_other c.docker.exec hport]
      exact h.kept t e ht
    rcases hprovisioned with ⟨hput, hexec⟩ | ⟨hsame, hexec⟩ | hremove
    · have hlookup : ∀ t e, (h'.after w c).provisioned.lookup t = some e →
          t = c.target ∧ e = endpoint ∨ t ≠ c.target ∧ h'.provisioned.lookup t = some e := by
        intro t e ht
        rw [hput, Directory.lookup_put] at ht
        split at ht
        · cases ht
          exact .inl ⟨‹_›, rfl⟩
        · exact .inr ⟨‹_›, ht⟩
      refine ⟨fun t e ht => ?_, fun t e ht => ?_⟩
      · rcases hlookup t e ht with ⟨rfl, rfl⟩ | ⟨hne, hold⟩
        · rw [hrelays, hexec]
          exact forwards_provisioned h'.relays _ e
        · exact hother t e hne hold
      · rcases hlookup t e ht with ⟨rfl, rfl⟩ | ⟨-, hold⟩
        · exact ⟨hc, hcontainers⟩
        · exact h.mem t e hold
    · refine ⟨fun t e ht => ?_, fun t e ht => h.mem t e (hsame ▸ ht)⟩
      rw [hrelays, hexec]
      exact h.kept t e (hsame ▸ ht)
    · have hlookup : ∀ t e, (h'.after w c).provisioned.lookup t = some e → t ≠ c.target ∧
          h'.provisioned.lookup t = some e := by
        intro t e ht
        rw [hremove, Directory.lookup_remove] at ht
        split at ht
        · cases ht
        · exact ⟨‹_›, ht⟩
      refine ⟨fun t e ht => ?_, fun t e ht => h.mem t e (hlookup t e ht).2⟩
      exact hother t e (hlookup t e ht).1 (hlookup t e ht).2

theorem apart_run (w : Workspace) (hports : ∀ t ∈ S, ∀ t' ∈ S, t.containers ≠ [] → t'.containers ≠ [] →
    relayPort t = relayPort t' → t = t') :
    ∀ (calls : List Call) {h : History}, Apart S h → (∀ c ∈ calls, c.target ∈ S) → Apart S (calls.foldl (History.after w) h)
  | [], _, h, _ => h
  | c :: calls, _, h, hcalls =>
    apart_run w hports calls (h.after w hports (hcalls c List.mem_cons_self)) fun c' hc' =>
      hcalls c' (List.mem_cons_of_mem c hc')

end Runs

/-! ## Two targets of one port -/

section Shared

/-- Docker answers with one container, under one address. -/
def answering (w : Workspace) (ip : String) : Docker :=
  let container : Container := ⟨some "1", some "/name", [(w.networkName, some ip)], fun _ => some 1⟩
  ⟨some container, fun _ => some container, fun _ => none, fun _ => none, fun _ _ => some container, .succeeded⟩

theorem plan_answering (w : Workspace) (mode : Mode) {ip : String} (hip : ip ≠ "") {target : Target}
    (hvalid : validateTarget target = .ok ()) (hcontainers : target.containers ≠ []) :
    ∃ host fingerprint port, plan (answering w ip) w target mode =
      .ok ⟨host, fingerprint, some (relayPort target, ⟨ip, port⟩)⟩ := by
  have hpresent : present (some ip) = some ip := by
    unfold present
    split
    · rename_i heq
      exact absurd (Option.some.inj heq) hip
    · rfl
  have houter : outerContainer (answering w ip) w = .ok ("1", ip) := by
    simp only [outerContainer, answering, List.lookup_cons_self, Option.join_some, hpresent]
    rfl
  have hinner : ∀ name, innerContainer (answering w ip) name = .ok ⟨"1", withoutSlash "/name", ip⟩ := by
    intro name
    have hid : present (some "1") = some "1" := rfl
    simp only [innerContainer, inspected, answering, bind, Except.bind, hid, List.filterMap_cons, hpresent]
    rfl
  have hrelay : ∀ container rest, ∃ port, relayTarget (answering w ip) target container rest = .ok (⟨ip, port⟩, "1") := by
    intro container rest
    simp only [relayTarget, hinner, bind, Except.bind]
    split
    · exact ⟨1, rfl⟩
    · exact ⟨target.port, rfl⟩
  rcases htarget : target.containers with _ | ⟨container, rest⟩
  · exact absurd htarget hcontainers
  · obtain ⟨port, hport⟩ := hrelay container rest
    refine ⟨if mode = .containerIp then ip else w.containerName, "1", port, ?_⟩
    simp only [plan, hvalid, houter, htarget, hport, bind, Except.bind]

/-- A call that docker answers with one address provisions the relay of its target. -/
theorem after_answering (w : Workspace) (mode : Mode) (ip : String) (hip : ip ≠ "") {target : Target}
    (hvalid : validateTarget target = .ok ()) (hcontainers : target.containers ≠ []) (h : History) :
    ∃ port, (h.after w ⟨target, mode, answering w ip⟩).relays =
        (ensureWorkspaceRelay .succeeded w (relayPort target) ⟨ip, port⟩ h.relays).2 ∧
      (h.after w ⟨target, mode, answering w ip⟩).provisioned = Directory.put target ⟨ip, port⟩ h.provisioned := by
  obtain ⟨host, fingerprint, port, hplan⟩ := plan_answering w mode hip hvalid hcontainers
  refine ⟨port, ?_⟩
  rw [History.after, resolveWorkspaceTarget, hplan]
  exact ⟨rfl, rfl⟩

/-- Of two targets with one port, the second call redirects the relay of the first. -/
theorem not_kept (w : Workspace) {t t' : Target} (hvalid : validateTarget t = .ok ()) (hvalid' : validateTarget t' = .ok ())
    (hcontainers : t.containers ≠ []) (hcontainers' : t'.containers ≠ []) (hport : relayPort t = relayPort t')
    (hne : t ≠ t') (mode : Mode) :
    ¬ (History.run w [⟨t, mode, answering w "172.18.0.2"⟩, ⟨t', mode, answering w "172.18.0.3"⟩]).Kept := by
  intro hkept
  obtain ⟨port, -, hfirst⟩ := after_answering w mode "172.18.0.2" (by decide) hvalid hcontainers
    ⟨⟨[], []⟩, []⟩
  obtain ⟨port', hrelays, hprovisioned⟩ := after_answering w mode "172.18.0.3" (by decide) hvalid'
    hcontainers' (History.after w ⟨⟨[], []⟩, []⟩ ⟨t, mode, answering w "172.18.0.2"⟩)
  have hforwards := hkept t ⟨"172.18.0.2", port⟩ (by
    rw [History.run, List.foldl_cons, List.foldl_cons, List.foldl_nil, hprovisioned, Directory.lookup_put_ne hne, hfirst,
      Directory.lookup_put_self])
  rw [History.run, List.foldl_cons, List.foldl_cons, List.foldl_nil, hrelays, hport, forwards_provisioned] at hforwards
  have hhosts : "172.18.0.3" = "172.18.0.2" := congrArg Endpoint.host (Option.some.inj hforwards)
  exact absurd hhosts (by decide)

end Shared

/-- The calls for a set of targets never redirect a relay of another target exactly when no two of them that have
containers have one port. -/
theorem relays_unshared (w : Workspace) (S : Set Target) (hS : ∀ t ∈ S, validateTarget t = .ok ()) :
    (∀ calls : List Call, (∀ c ∈ calls, c.target ∈ S) → (History.run w calls).Kept) ↔
      ∀ t ∈ S, ∀ t' ∈ S, t.containers ≠ [] → t'.containers ≠ [] → relayPort t = relayPort t' → t = t' := by
  constructor
  · intro hkept t ht t' ht' hcontainers hcontainers' hport
    by_contra hne
    refine not_kept w (hS t ht) (hS t' ht') hcontainers hcontainers' hport hne .containerIp (hkept _ fun c hc => ?_)
    rcases List.mem_cons.mp hc with rfl | hc
    · exact ht
    · obtain rfl := List.mem_singleton.mp hc
      exact ht'
  · intro hports calls hcalls
    exact (apart_run w hports calls (apart_nothing S) hcalls).kept

namespace Sample

def workspace : Workspace := ⟨"work", "dim-ws-work", "dim-control"⟩

def redis : Target := ⟨["redis"], 3000, .tcp⟩

def worker : Target := ⟨["worker"], 3000, .http⟩

def nested : Target := ⟨["parent", "leaf"], 8080, .tcp⟩

/-- Two targets with ports of their own. -/
theorem redis_beside_nested :
    (History.run workspace [⟨redis, .containerIp, answering workspace "172.18.0.2"⟩,
      ⟨nested, .containerIp, answering workspace "172.18.0.3"⟩]).Kept := by
  refine (relays_unshared workspace {redis, nested} ?_).mpr ?_ _ ?_
  · rintro t (rfl | rfl)
    · decide +kernel
    · decide +kernel
  · have hports : relayPort redis ≠ relayPort nested := by decide +kernel
    rintro t (rfl | rfl) t' (rfl | rfl) - - hport
    · rfl
    · exact absurd hport hports
    · exact absurd hport.symm hports
    · rfl
  · intro c hc
    rcases List.mem_cons.mp hc with rfl | hc
    · exact .inl rfl
    · obtain rfl := List.mem_singleton.mp hc
      exact .inr rfl

/-- The relays of `redis` and `worker` have the port 49717. -/
theorem worker_redirects_redis : ¬ ∀ (w : Workspace) (calls : List Call), (∀ c ∈ calls, validateTarget c.target = .ok ()) →
    (History.run w calls).Kept := by
  intro h
  have hredis : validateTarget redis = .ok () := by decide +kernel
  have hworker : validateTarget worker = .ok () := by decide +kernel
  refine not_kept workspace hredis hworker nofun nofun (by decide +kernel) (by decide) .containerIp
    (h workspace _ fun c hc => ?_)
  rcases List.mem_cons.mp hc with rfl | hc
  · exact hredis
  · obtain rfl := List.mem_singleton.mp hc
    exact hworker

end Sample

end Dim.Controller
