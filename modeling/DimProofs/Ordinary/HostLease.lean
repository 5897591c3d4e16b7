/-
`startNativeLease` and `maintainLease`: the lease a host holds on its claim, renewed over a network
that delays, loses and repeats messages. The host counts from the instant before it sends, the
authority from the instant of receipt. Both read one clock: `performance.now()` with its fractions,
less the constant `origin`, and `Date.now()` rounded down to whole milliseconds. So the deadline of
the host is past the authority's by less than a millisecond. Timers count from what the event loop
last read, so when they end is left open.
-/
import DimProofs.Ordinary.Instances
import DimProofs.Ordinary.ClaimService

namespace Dim.Ordinary

open Relational

/-! ## The lease of a host -/

def renewalRequest (claim : NativeHostClaim) (requestId : String) : NativeHostClaimRenewalRequest :=
  { requestId, hostId := claim.hostId, capacity := claim.capacity, claimId := claim.claimId,
    attemptId := claim.attemptId, descriptorDigest := claim.descriptorDigest }

/-- A renewal that was sent, with the reading of `performance.now()` before. -/
structure SentRenewal where
  request : NativeHostClaimRenewalRequest
  requestStarted : ℚ

/-- Where the loop of `maintainLease` stands. -/
inductive Maintenance where
  | waiting (response : NativeHostClaimRenewal) (requestStarted : ℚ)
  | requesting (renewal : SentRenewal)
  | finished

/-- The variables of `startNativeLease`; `stopped` is that of its stop signal. -/
structure NativeLease where
  deadline : ℚ
  (lost stopped : Bool)
  maintenance : Maintenance

/-- `startNativeLease` once its first renewal is answered; `none` where it throws. -/
def startNativeLease (initial : NativeHostClaimRenewal) (requestStarted now : ℚ) : Option NativeLease :=
  let initialDeadline := requestStarted + initial.leaseDurationMilliseconds
  if initialDeadline ≤ now then none
  else some { deadline := initialDeadline, lost := false, stopped := false,
              maintenance := .waiting initial requestStarted }

namespace NativeLease

def lose (lease : NativeLease) : NativeLease :=
  if lease.lost then lease else if lease.stopped then lease else { lease with lost := true }

def armDeadline (lease : NativeLease) (nextDeadline : ℚ) : NativeLease := { lease with deadline := nextDeadline }

/-- `accept`, and the loop that goes on or returns. -/
def accept (lease : NativeLease) (response : NativeHostClaimRenewal) (started now : ℚ) : NativeLease :=
  let nextDeadline := started + response.leaseDurationMilliseconds
  if nextDeadline ≤ now then { lease.lose with maintenance := .finished }
  else { lease.armDeadline nextDeadline with maintenance := .waiting response started }

def isCurrent (lease : NativeLease) (now : ℚ) : Bool × NativeLease :=
  let lease := if !lease.lost && lease.deadline ≤ now then lease.lose else lease
  (!lease.lost, lease)

def stop (lease : NativeLease) : NativeLease := { lease with stopped := true }

/-- A renewal that fails ends the loop and the lease. -/
def fail (lease : NativeLease) : NativeLease := { lease.lose with maintenance := .finished }

@[simp] theorem lose_deadline (lease : NativeLease) : lease.lose.deadline = lease.deadline := by
  unfold lose
  split
  · rfl
  · split <;> rfl

@[simp] theorem lose_maintenance (lease : NativeLease) : lease.lose.maintenance = lease.maintenance := by
  unfold lose
  split
  · rfl
  · split <;> rfl

@[simp] theorem isCurrent_deadline (lease : NativeLease) (now : ℚ) :
    (lease.isCurrent now).2.deadline = lease.deadline := by
  unfold isCurrent
  dsimp only
  split
  · exact lease.lose_deadline
  · rfl

@[simp] theorem isCurrent_maintenance (lease : NativeLease) (now : ℚ) :
    (lease.isCurrent now).2.maintenance = lease.maintenance := by
  unfold isCurrent
  dsimp only
  split
  · exact lease.lose_maintenance
  · rfl

/-- A lease that is not stopped is current before its deadline only. -/
theorem lt_deadline {lease : NativeLease} {now : ℚ} (hs : lease.stopped = false) (h : (lease.isCurrent now).1 = true) :
    now < lease.deadline := by
  by_contra hlate
  have hdue : lease.deadline ≤ now := not_lt.mp hlate
  cases hlost : lease.lost <;> simp [isCurrent, lose, hdue, hlost, hs] at h

end NativeLease

/-- The check of the client that a renewal answers its request. -/
def SentRenewal.answeredBy (claim : NativeHostClaim) (renewal : SentRenewal) (response : NativeHostClaimRenewal) : Prop :=
  response.serviceId = claim.serviceId ∧ response.requestId = renewal.request.requestId ∧
    response.claimId = renewal.request.claimId

/-! ## The host, the network and the authority -/

inductive HostLease where
  | idle
  | starting (renewal : SentRenewal)
  | refused
  | held (lease : NativeLease)

/-- The host once `startNativeLease` returned or threw. -/
def HostLease.ofStart : Option NativeLease → HostLease
  | none => .refused
  | some lease => .held lease

/-- The authority and the instant; every renewal sent, and every answer, both there to be delivered at any time. -/
structure LeaseSystem where
  db : AuthorityDatabase
  instances : List NativeOrdinaryAuthorityStore
  instant : ℚ
  sent : List SentRenewal
  responses : List NativeHostClaimRenewal
  host : HostLease

/-- The authority, which reads `Date.now()`. -/
def LeaseSystem.authority (s : LeaseSystem) : Authority := { db := s.db, instances := s.instances, clock := ⌊s.instant⌋ }

/-- The reading of `performance.now()`. -/
def LeaseSystem.now (origin : ℚ) (s : LeaseSystem) : ℚ := s.instant - origin

/-- The renewal that the host sends under a new random id. -/
def LeaseSystem.renewal (claim : NativeHostClaim) (origin : ℚ) (s : LeaseSystem) (requestId : String) : SentRenewal :=
  { request := renewalRequest claim requestId, requestStarted := s.now origin }

/-- `randomUUID` does not repeat. -/
def LeaseSystem.Fresh (s : LeaseSystem) (requestId : String) : Prop := ∀ m ∈ s.sent, m.request.requestId ≠ requestId

section
variable [Sha256]

inductive LeaseSystem.Step (claim : NativeHostClaim) (origin : ℚ) : LeaseSystem → LeaseSystem → Prop
  | tick {s : LeaseSystem} (instant : ℚ) (h : s.instant ≤ instant) : Step claim origin s { s with instant }
  | authority {s : LeaseSystem} {a : Authority} (h : Authority.Step s.authority a) (hc : a.clock = s.authority.clock) :
      Step claim origin s { s with db := a.db, instances := a.instances }
  | deliver {s : LeaseSystem} {m : SentRenewal} {store : NativeOrdinaryAuthorityStore} {response : NativeHostClaimRenewal}
      {db : AuthorityDatabase} (hm : m ∈ s.sent) (hs : store ∈ s.instances)
      (h : LeaseStore.renew (AuthorityStore.leaseStore store) m.request ⌊s.instant⌋ s.db = .ok (some response, db)) :
      Step claim origin s { s with db, responses := response :: s.responses }
  | begin {s : LeaseSystem} {requestId : String} (h : s.host = .idle) (hf : s.Fresh requestId) :
      Step claim origin s { s with host := .starting (s.renewal claim origin requestId),
                                   sent := s.renewal claim origin requestId :: s.sent }
  | started {s : LeaseSystem} {m : SentRenewal} {response : NativeHostClaimRenewal} (h : s.host = .starting m)
      (hr : response ∈ s.responses) (ha : m.answeredBy claim response) :
      Step claim origin s { s with host := .ofStart (startNativeLease response m.requestStarted (s.now origin)) }
  | refused {s : LeaseSystem} {m : SentRenewal} (h : s.host = .starting m) : Step claim origin s { s with host := .refused }
  | renew {s : LeaseSystem} {lease : NativeLease} {response : NativeHostClaimRenewal} {requestStarted : ℚ}
      {requestId : String} (h : s.host = .held lease) (hm : lease.maintenance = .waiting response requestStarted)
      (hc : lease.lost = false ∧ lease.stopped = false) (hf : s.Fresh requestId) :
      Step claim origin s
        { s with host := .held { lease with maintenance := .requesting (s.renewal claim origin requestId) },
                 sent := s.renewal claim origin requestId :: s.sent }
  | renewed {s : LeaseSystem} {lease : NativeLease} {m : SentRenewal} {response : NativeHostClaimRenewal}
      (h : s.host = .held lease) (hm : lease.maintenance = .requesting m) (hr : response ∈ s.responses)
      (ha : m.answeredBy claim response) :
      Step claim origin s { s with host := .held (lease.accept response m.requestStarted (s.now origin)) }
  | failed {s : LeaseSystem} {lease : NativeLease} {m : SentRenewal} (h : s.host = .held lease)
      (hm : lease.maintenance = .requesting m) : Step claim origin s { s with host := .held lease.fail }
  | aborted {s : LeaseSystem} {lease : NativeLease} (h : s.host = .held lease)
      (hc : lease.lost = true ∨ lease.stopped = true) : Step claim origin s { s with host := .held lease.fail }
  | expired {s : LeaseSystem} {lease : NativeLease} (h : s.host = .held lease) :
      Step claim origin s { s with host := .held lease.lose }
  | asked {s : LeaseSystem} {lease : NativeLease} (h : s.host = .held lease) :
      Step claim origin s { s with host := .held (lease.isCurrent (s.now origin)).2 }
  | stopped {s : LeaseSystem} {lease : NativeLease} (h : s.host = .held lease) :
      Step claim origin s { s with host := .held lease.stop }

def LeaseSystem.Initial (s : LeaseSystem) : Prop :=
  s.authority.Initial ∧ s.sent = [] ∧ s.responses = [] ∧ s.host = .idle

abbrev LeaseSystem.Reachable (claim : NativeHostClaim) (origin : ℚ) : LeaseSystem → Prop :=
  Transition.Reachable LeaseSystem.Initial (LeaseSystem.Step claim origin)

/-! ## Safety -/

variable {claim : NativeHostClaim} {origin : ℚ}

omit [Sha256] in
/-- The renewal that the host waits for. -/
def HostLease.pending : HostLease → Option SentRenewal
  | .starting m => some m
  | .held lease =>
    match lease.maintenance with
    | .requesting m => some m
    | _ => none
  | _ => none

omit [Sha256] in
/-- The lease that the authority granted is over less than a millisecond before the instant, or later. -/
def Granted (db : AuthorityDatabase) (claimId : String) (instant : ℚ) : Prop :=
  ∃ lease, leaseOf db claimId = some lease ∧ instant < lease + 1

/-- Whatever answer comes to whatever request, the host counts to an instant of the granted lease. -/
structure LeaseSystem.Safe (claim : NativeHostClaim) (origin : ℚ) (s : LeaseSystem) : Prop where
  authority : s.authority.Reachable
  single : ∀ m ∈ s.sent, ∀ m' ∈ s.sent, m'.request.requestId = m.request.requestId → m' = m
  sent : ∀ m ∈ s.sent, m.request.claimId = claim.claimId ∧ m.requestStarted + origin ≤ s.instant
  answers : ∀ response ∈ s.responses, ∃ m ∈ s.sent, m.request.requestId = response.requestId ∧
    Granted s.db claim.claimId (m.requestStarted + response.leaseDurationMilliseconds + origin)
  pending : ∀ m, s.host.pending = some m → m ∈ s.sent
  deadline : ∀ lease, s.host = .held lease → Granted s.db claim.claimId (lease.deadline + origin)

variable {s : LeaseSystem}

theorem LeaseSystem.Safe.tick (h : s.Safe claim origin) {instant : ℚ} (hle : s.instant ≤ instant) :
    LeaseSystem.Safe claim origin { s with instant } :=
  ⟨h.authority.step (.tick ⌊instant⌋ (Int.floor_le_floor hle)), h.single,
    fun m hm => ⟨(h.sent m hm).1, (h.sent m hm).2.trans hle⟩, h.answers, h.pending, h.deadline⟩

/-- Renewals only move the end of a lease on. -/
theorem LeaseSystem.Safe.of_authority (h : s.Safe claim origin) {a : Authority} (hs : Authority.Step s.authority a)
    (hc : a.clock = s.authority.clock) :
    LeaseSystem.Safe claim origin { s with db := a.db, instances := a.instances } := by
  have hgrows : ∀ instant, Granted s.db claim.claimId instant → Granted a.db claim.claimId instant := by
    rintro instant ⟨lease, hlease, hlt⟩
    obtain ⟨lease', hlease', hmono⟩ := hs.leases_grow h.authority hlease
    exact ⟨lease', hlease', hlt.trans_le (by gcongr)⟩
  have hreachable : Authority.Reachable { db := a.db, instances := a.instances, clock := ⌊s.instant⌋ } := by
    have hstep := h.authority.step hs
    have ha : a = { db := a.db, instances := a.instances, clock := ⌊s.instant⌋ } := by
      rw [show ⌊s.instant⌋ = a.clock from hc.symm]
    rwa [ha] at hstep
  refine ⟨hreachable, h.single, h.sent, ?_, h.pending, fun lease hl => hgrows _ (h.deadline lease hl)⟩
  intro response hr
  obtain ⟨m, hm, hid, hg⟩ := h.answers response hr
  exact ⟨m, hm, hid, hgrows _ hg⟩

variable {response : NativeHostClaimRenewal}

omit [Sha256] in
/-- A renewal is answered with a duration that ends with the lease. -/
theorem renew_duration {store : NativeOrdinaryAuthorityStore} {request : NativeHostClaimRenewalRequest} {now : Int}
    {db db' : AuthorityDatabase}
    (h : LeaseStore.renew (AuthorityStore.leaseStore store) request now db = .ok (some response, db')) :
    response.requestId = request.requestId ∧
      leaseOf db' request.claimId = some (now + response.leaseDurationMilliseconds) := by
  simp only [LeaseStore.renew, bind_ok] at h
  obtain ⟨-, -, h⟩ := h
  split at h
  · cases h
  rename_i c hexact
  obtain ⟨hget, -⟩ := LeaseStore.exactClaim_some hexact
  split at h
  · cases h
  split at h
  · -- a replay, answered with what remains
    cases h
    refine ⟨rfl, ?_⟩
    simp only [leaseOf, hget, Option.map_some, LeaseStore.renewal, Option.some.injEq]
    omega
  · simp only [bind_ok, pure_ok, Prod.mk.injEq, Option.some.injEq] at h
    obtain ⟨claims, hcl, rfl, rfl⟩ := h
    have hnew := Table.get?_update_self hcl (fun _ => rfl) hget (by simpa using Table.get?_key hget)
    exact ⟨rfl, by simp [leaseOf, hnew, LeaseStore.renewal]⟩

variable {host : HostLease}

/-- A host step that sends nothing, waits for nothing new and does not count further. -/
theorem LeaseSystem.Safe.of_host (h : s.Safe claim origin)
    (hp : ∀ m, host.pending = some m → s.host.pending = some m)
    (hd : ∀ lease, host = .held lease → Granted s.db claim.claimId (lease.deadline + origin)) :
    LeaseSystem.Safe claim origin { s with host } :=
  ⟨h.authority, h.single, h.sent, h.answers, fun m hm => h.pending m (hp m hm), hd⟩

/-- A host step that sends a renewal under a fresh id. -/
theorem LeaseSystem.Safe.of_send (h : s.Safe claim origin) {requestId : String} (hf : s.Fresh requestId)
    (hp : ∀ m, host.pending = some m → m = s.renewal claim origin requestId)
    (hd : ∀ lease, host = .held lease → Granted s.db claim.claimId (lease.deadline + origin)) :
    LeaseSystem.Safe claim origin { s with host, sent := s.renewal claim origin requestId :: s.sent } := by
  refine ⟨h.authority, ?_, ?_, ?_, ?_, hd⟩
  · intro m hm m' hm' hid
    rcases List.mem_cons.mp hm with rfl | hm
    · rcases List.mem_cons.mp hm' with rfl | hm'
      · rfl
      · exact absurd hid (hf m' hm')
    · rcases List.mem_cons.mp hm' with rfl | hm'
      · exact absurd hid.symm (hf m hm)
      · exact h.single m hm m' hm' hid
  · intro m hm
    rcases List.mem_cons.mp hm with rfl | hm
    · exact ⟨rfl, by simp [LeaseSystem.renewal, LeaseSystem.now]⟩
    · exact h.sent m hm
  · intro response hr
    obtain ⟨m, hm, hid, hg⟩ := h.answers response hr
    exact ⟨m, List.mem_cons_of_mem _ hm, hid, hg⟩
  · intro m hm
    rw [hp m hm]
    exact List.mem_cons_self

/-- The answer to the renewal that the host waits for is within the granted lease. -/
theorem LeaseSystem.Safe.answered (h : s.Safe claim origin) {m : SentRenewal}
    (hp : s.host.pending = some m) (hr : response ∈ s.responses)
    (ha : m.answeredBy claim response) :
    Granted s.db claim.claimId (m.requestStarted + response.leaseDurationMilliseconds + origin) := by
  obtain ⟨m', hm', hid, hg⟩ := h.answers response hr
  rw [h.single m (h.pending m hp) m' hm' (hid.trans ha.2.1)] at hg
  exact hg

theorem LeaseSystem.Safe.step {s s' : LeaseSystem} (h : s.Safe claim origin) (hs : LeaseSystem.Step claim origin s s') :
    s'.Safe claim origin := by
  cases hs with
  | tick instant hle => exact h.tick hle
  | authority ha hc => exact h.of_authority ha hc
  | @deliver m store response db hm hstore hrenew =>
    have hbody : (Transaction.renew m.request ⌊s.instant⌋).body store s.db = .ok db := map_ok.mpr ⟨_, hrenew, rfl⟩
    have hrun : (Transaction.renew m.request ⌊s.instant⌋).run store s.db = db := by simp only [Transaction.run, hbody]
    have hauthority : Authority.Step s.authority { s.authority with db } := by
      have hstep := Authority.Step.run store (.renew m.request ⌊s.instant⌋) hstore (a := s.authority) (by
        intro now hnow
        cases hnow
        rfl)
      rwa [show s.authority.db = s.db from rfl, hrun] at hstep
    have hsafe := h.of_authority hauthority rfl
    obtain ⟨hid, hlease⟩ := renew_duration hrenew
    obtain ⟨hk, hle⟩ := h.sent m hm
    refine ⟨hsafe.authority, hsafe.single, hsafe.sent, ?_, hsafe.pending, hsafe.deadline⟩
    intro r hr
    rcases List.mem_cons.mp hr with rfl | hr
    · -- the request was sent before it was received, and its receipt is rounded down
      refine ⟨m, hm, hid.symm, _, hk ▸ hlease, ?_⟩
      have hround := Int.lt_floor_add_one s.instant
      push_cast
      linarith
    · exact hsafe.answers r hr
  | begin hidle hf =>
    refine h.of_send hf ?_ ?_
    · intro m hm
      simpa [HostLease.pending] using hm.symm
    · intro lease hl
      cases hl
  | @started m response hstarting hr ha =>
    have hgranted := h.answered (by rw [hstarting]; rfl) hr ha
    refine h.of_host ?_ ?_
    · intro m' hm'
      unfold startNativeLease at hm'
      dsimp only at hm'
      split at hm' <;> cases hm'
    · intro lease hl
      unfold startNativeLease at hl
      dsimp only at hl
      split at hl
      · cases hl
      · cases hl
        exact hgranted
  | refused hstarting =>
    refine h.of_host ?_ ?_
    · intro m hm
      cases hm
    · intro lease hl
      cases hl
  | @renew lease response requestStarted requestId hheld hm hc hf =>
    refine h.of_send hf ?_ ?_
    · intro m' hm'
      simpa [HostLease.pending] using hm'.symm
    · intro lease' hl
      cases hl
      exact h.deadline lease hheld
  | @renewed lease m response hheld hm hr ha =>
    have hgranted := h.answered (by rw [hheld]; simp [HostLease.pending, hm]) hr ha
    have hdeadline := h.deadline lease hheld
    refine h.of_host ?_ ?_
    · intro m' hm'
      unfold NativeLease.accept at hm'
      dsimp only at hm'
      split at hm' <;> cases hm'
    · intro lease' hl
      cases hl
      unfold NativeLease.accept
      dsimp only
      split
      · simpa using hdeadline
      · exact hgranted
  | @failed lease m hheld hm =>
    refine h.of_host ?_ ?_
    · intro m' hm'
      cases hm'
    · intro lease' hl
      cases hl
      simpa [NativeLease.fail] using h.deadline lease hheld
  | @aborted lease hheld hc =>
    refine h.of_host ?_ ?_
    · intro m' hm'
      cases hm'
    · intro lease' hl
      cases hl
      simpa [NativeLease.fail] using h.deadline lease hheld
  | @expired lease hheld =>
    refine h.of_host ?_ ?_
    · intro m' hm'
      rw [hheld]
      simpa [HostLease.pending] using hm'
    · intro lease' hl
      cases hl
      simpa using h.deadline lease hheld
  | @asked lease hheld =>
    refine h.of_host ?_ ?_
    · intro m' hm'
      rw [hheld]
      simpa [HostLease.pending] using hm'
    · intro lease' hl
      cases hl
      simpa using h.deadline lease hheld
  | @stopped lease hheld =>
    refine h.of_host ?_ ?_
    · intro m' hm'
      rw [hheld]
      exact hm'
    · intro lease' hl
      cases hl
      exact h.deadline lease hheld

theorem LeaseSystem.Reachable.safe {s : LeaseSystem} (h : LeaseSystem.Reachable claim origin s) : s.Safe claim origin := by
  refine Transition.Reachable.invariant (I := LeaseSystem.Safe claim origin) ?_ (fun _ _ hsafe hs => hsafe.step hs) h
  rintro s ⟨hauthority, hsent, hresponses, hhost⟩
  refine ⟨.init hauthority, ?_, ?_, ?_, ?_, ?_⟩
  · rw [hsent]
    intro m hm
    cases hm
  · rw [hsent]
    intro m hm
    cases hm
  · rw [hresponses]
    intro response hr
    cases hr
  · rw [hhost]
    intro m hm
    cases hm
  · rw [hhost]
    intro lease hl
    cases hl

/-- The authority runs before the host begins. -/
theorem LeaseSystem.reachable_of_authority {a : Authority} (h : a.Reachable) : ∀ instant : ℚ, ⌊instant⌋ = a.clock →
    LeaseSystem.Reachable claim origin
      { db := a.db, instances := a.instances, instant, sent := [], responses := [], host := .idle } := by
  refine Transition.Reachable.invariant (I := fun a => ∀ instant : ℚ, ⌊instant⌋ = a.clock →
    LeaseSystem.Reachable claim origin
      { db := a.db, instances := a.instances, instant, sent := [], responses := [], host := .idle }) ?_ ?_ h
  · intro a ha instant _
    exact .init ⟨ha, rfl, rfl, rfl⟩
  · intro a a' hr hs instant hclock
    have hstill : a'.clock = a.clock → LeaseSystem.Reachable claim origin
        { db := a'.db, instances := a'.instances, instant, sent := [], responses := [], host := .idle } := by
      intro hsame
      have hnow : ⌊instant⌋ = a.clock := hclock.trans hsame
      refine (hr instant hnow).step (.authority (a := a') ?_ (hsame.trans hnow.symm))
      rwa [show LeaseSystem.authority _ = a by rw [LeaseSystem.authority, hnow]]
    cases hs with
    | tick clock hle =>
      have hlater : (a.clock : ℚ) ≤ instant := (Int.cast_le.mpr (hle.trans_eq hclock.symm)).trans (Int.floor_le instant)
      exact (hr a.clock (Int.floor_intCast _)).step (.tick instant hlater)
    | start => exact hstill rfl
    | run => exact hstill rfl

/-- A lease is safe up to the rounding of the authority's clock. The deadline of the host is past the lease that the
authority granted by less than a millisecond, whatever is delayed, lost or replayed; so a lease that is not stopped and
reports itself current is one that the authority has let expire less than a millisecond ago, if at all. -/
theorem lease_safety {s : LeaseSystem} (h : LeaseSystem.Reachable claim origin s) {lease : NativeLease}
    (hl : s.host = .held lease) : ∃ c ∈ s.db.claims.rows, c.claimId = claim.claimId ∧
      lease.deadline + origin < c.leaseExpiresAt + 1 ∧
      (lease.stopped = false → (lease.isCurrent (s.now origin)).1 = true → s.instant < c.leaseExpiresAt + 1) := by
  obtain ⟨granted, hlease, hlt⟩ := h.safe.deadline lease hl
  obtain ⟨c, hc, rfl⟩ := Option.map_eq_some_iff.mp hlease
  refine ⟨c, Table.get?_mem hc, Table.get?_key hc, hlt, ?_⟩
  intro hs hcurrent
  have hbefore := NativeLease.lt_deadline hs hcurrent
  unfold LeaseSystem.now at hbefore
  linarith

end

namespace Sample

attribute [local instance] sha256

/-- The claim as its host knows it. -/
def hostClaim : NativeHostClaim :=
  { serviceId := "service", requestId := "request", claimId := "claim", eventId := "event", reviewId := "review",
    attemptId := "attempt", attempt := 1, admissionGeneration := "generation", hostId := "host", capacity := "small",
    leaseExpiresAt := 105, descriptor, descriptorDigest := nativeDescriptorDigest descriptor }

def renewalResponse : NativeHostClaimRenewal :=
  { serviceId := "service", requestId := "renewal", claimId := "claim", leaseExpiresAt := 106,
    leaseDurationMilliseconds := 100 }

/-- The renewal that the host sends at 6.9. -/
def sentRenewal : SentRenewal := { request := renewalRequest hostClaim "renewal", requestStarted := 69 / 10 }

def renewed : AuthorityDatabase := (Transaction.renew sentRenewal.request 6).run store active

/-- The lease that starts when the renewal is answered at once. -/
def lease : NativeLease :=
  { deadline := 69 / 10 + 100, lost := false, stopped := false, maintenance := .waiting renewalResponse (69 / 10) }

/-- At 6.9 the host has not begun. -/
def idle (db : AuthorityDatabase) : LeaseSystem :=
  { db, instances := [store], instant := 69 / 10, sent := [], responses := [], host := .idle }

/-- The host holds its lease at an instant. -/
def holding (db : AuthorityDatabase) (lease : NativeLease) (instant : ℚ) : LeaseSystem :=
  { db, instances := [store], instant, sent := [sentRenewal], responses := [renewalResponse], host := .held lease }

theorem start_begins : AuthorityStore.beginEpochAndExpire store 1 .empty = .ok ((), start store 1 .empty) := by
  have hbegins : (AuthorityStore.beginEpochAndExpire store 1 .empty).toOption.isSome = true := by decide +kernel
  unfold start
  cases h : AuthorityStore.beginEpochAndExpire store 1 .empty with
  | error e =>
    rw [h] at hbegins
    cases hbegins
  | ok answer => rfl

theorem renew_answers : LeaseStore.renew (AuthorityStore.leaseStore store) sentRenewal.request 6 active =
    .ok (some renewalResponse, renewed) := by
  have hanswer : (LeaseStore.renew (AuthorityStore.leaseStore store) sentRenewal.request 6 active).toOption.map (·.1) =
      some (some renewalResponse) := by
    decide +kernel
  cases h : LeaseStore.renew (AuthorityStore.leaseStore store) sentRenewal.request 6 active with
  | error e =>
    rw [h] at hanswer
    cases hanswer
  | ok answer =>
    rw [h] at hanswer
    obtain ⟨response, db⟩ := answer
    have hresponse : response = some renewalResponse := Option.some.inj hanswer
    have hbody : (Transaction.renew sentRenewal.request 6).body store active = .ok db := map_ok.mpr ⟨_, h, rfl⟩
    rw [hresponse]
    simp only [renewed, Transaction.run, hbody]

variable {clock : Int} {db : AuthorityDatabase}

/-- One transaction of the instance, at an instant. -/
theorem run_reachable (clock' : Int) (t : Transaction)
    (h : Authority.Reachable { db, instances := [store], clock }) (hle : clock ≤ clock')
    (ht : ∀ now ∈ t.reading, now = clock') :
    Authority.Reachable { db := t.run store db, instances := [store], clock := clock' } :=
  .step (.step h (.tick clock' hle)) (.run store t (List.mem_singleton.mpr rfl) ht)

theorem active_at : Authority.Reachable { db := active, instances := [store], clock := 5 } := by
  have hstart : Authority.Reachable { db := start store 1 .empty, instances := [store], clock := 1 } :=
    .step (.init (s := { db := .empty, instances := [], clock := 1 }) ⟨rfl, rfl⟩) (.start store start_begins)
  have hadmitted := run_reachable 2 (.admitPolicy policy "generation" 2) hstart (by decide) (by simp [Transaction.reading])
  have hqueued := run_reachable 3 (.acceptEvent event "demand" 3) hadmitted (by decide) (by simp [Transaction.reading])
  have hreserved := run_reachable 4 (.reserve request "claim" 4) hqueued (by decide) (by simp [Transaction.reading])
  exact run_reachable 5 (.activate request reservation { assignment, issuance } 5) hreserved (by decide)
    (by simp [Transaction.reading])

theorem starts : startNativeLease renewalResponse (69 / 10) (69 / 10 - 0) = some lease := by
  norm_num [startNativeLease, lease, renewalResponse]

/-- A renewal sent, received and answered at 6.9. -/
theorem holding_reachable {db' : AuthorityDatabase} (h : Authority.Reachable { db, instances := [store], clock := 5 })
    (hr : LeaseStore.renew (AuthorityStore.leaseStore store) sentRenewal.request 6 db = .ok (some renewalResponse, db')) :
    LeaseSystem.Reachable hostClaim 0 (holding db' lease (69 / 10)) := by
  have hidle : LeaseSystem.Reachable hostClaim 0 (idle db) :=
    (LeaseSystem.reachable_of_authority h 5 (by norm_num)).step (.tick (69 / 10) (by norm_num))
  have hsame : (idle db).renewal hostClaim 0 "renewal" = sentRenewal := by
    simp [LeaseSystem.renewal, LeaseSystem.now, sentRenewal, idle]
  have hsent := hidle.step (.begin rfl (show (idle db).Fresh "renewal" from fun m hm => by cases hm))
  rw [hsame] at hsent
  have hreceipt : ⌊(69 / 10 : ℚ)⌋ = 6 := by norm_num
  have hanswered : LeaseSystem.Reachable hostClaim 0 { holding db' lease (69 / 10) with host := .starting sentRenewal } :=
    hsent.step (.deliver (m := sentRenewal) (List.mem_singleton.mpr rfl) (List.mem_singleton.mpr rfl) (hreceipt ▸ hr))
  have hstarted : LeaseSystem.Reachable hostClaim 0 { holding db' lease (69 / 10) with
      host := .ofStart (startNativeLease renewalResponse (69 / 10) (69 / 10 - 0)) } :=
    hanswered.step (.started (m := sentRenewal) rfl
      (show renewalResponse ∈ [renewalResponse] from List.mem_singleton.mpr rfl) ⟨rfl, rfl, rfl⟩)
  rwa [starts] at hstarted

theorem holding_later {lease : NativeLease} {instant instant' : ℚ} (hle : instant ≤ instant')
    (h : LeaseSystem.Reachable hostClaim 0 (holding db lease instant)) :
    LeaseSystem.Reachable hostClaim 0 (holding db lease instant') :=
  h.step (.tick instant' hle)

theorem holding_stopped {lease : NativeLease} {instant : ℚ}
    (h : LeaseSystem.Reachable hostClaim 0 (holding db lease instant)) :
    LeaseSystem.Reachable hostClaim 0 (holding db lease.stop instant) :=
  h.step (.stopped rfl)

theorem lease_current {instant : ℚ} (h : instant < 1069 / 10) : (lease.isCurrent (instant - 0)).1 = true := by
  have hbefore : ¬ (69 / 10 + 100 : ℚ) ≤ instant := by linarith
  simp [NativeLease.isCurrent, lease, hbefore]

end Sample

/-- At 50 the lease of the host is current, and the authority's is not over. -/
theorem lease_safety_holding : ∃ c ∈ Sample.renewed.claims.rows, c.claimId = "claim" ∧ (50 : ℚ) < c.leaseExpiresAt + 1 := by
  have hheld := Sample.holding_reachable Sample.active_at Sample.renew_answers
  have hlater := Sample.holding_later (show (69 / 10 : ℚ) ≤ 50 by norm_num) hheld
  have hsafe := @lease_safety Sample.sha256 Sample.hostClaim 0 _ hlater Sample.lease rfl
  dsimp only [Sample.holding] at hsafe
  obtain ⟨c, hc, hk, -, hcurrent⟩ := hsafe
  exact ⟨c, hc, hk, hcurrent rfl (Sample.lease_current (by norm_num))⟩

/-- A lease is current after the authority's has expired: for the rest of a millisecond, as its deadline is not rounded,
and for ever once it is stopped, as `lose` does nothing then. -/
theorem lease_current_expired :
    (∃ s : LeaseSystem, @LeaseSystem.Reachable Sample.sha256 Sample.hostClaim 0 s ∧
      ∃ lease, s.host = .held lease ∧ lease.stopped = false ∧ (lease.isCurrent (s.now 0)).1 = true ∧
        ∀ c ∈ s.db.claims.rows, c.leaseExpiresAt ≤ s.authority.clock ∧ (c.leaseExpiresAt : ℚ) < lease.deadline)
    ∧ ∃ s : LeaseSystem, @LeaseSystem.Reachable Sample.sha256 Sample.hostClaim 0 s ∧
      ∃ lease, s.host = .held lease ∧ (lease.isCurrent (s.now 0)).1 = true ∧
        ∀ c ∈ s.db.claims.rows, (c.leaseExpiresAt : ℚ) + 1 ≤ s.instant := by
  have hheld := Sample.holding_reachable Sample.active_at Sample.renew_answers
  have hlease : ∀ c ∈ Sample.renewed.claims.rows, c.leaseExpiresAt = 106 := by decide +kernel
  generalize Sample.renewed = db at hheld hlease
  have hlater := Sample.holding_later (show (69 / 10 : ℚ) ≤ 213 / 2 by norm_num) hheld
  have hstopped := Sample.holding_later (show (69 / 10 : ℚ) ≤ 300 by norm_num) (Sample.holding_stopped hheld)
  refine ⟨⟨_, hlater, Sample.lease, rfl, rfl, Sample.lease_current (show (213 / 2 : ℚ) < _ by norm_num), fun c hc => ?_⟩,
    ⟨_, hstopped, Sample.lease.stop, rfl, ?_, fun c hc => ?_⟩⟩
  · rw [hlease c hc]
    norm_num [LeaseSystem.authority, Sample.holding, Sample.lease]
  · simp [NativeLease.isCurrent, NativeLease.lose, NativeLease.stop, Sample.lease]
  · rw [hlease c hc]
    norm_num [Sample.holding]

end Dim.Ordinary
