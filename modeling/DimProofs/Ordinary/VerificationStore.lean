/-
`NativeOrdinaryVerificationStore`, and the `currentResult` of `NativeOrdinaryResultStore`: the reads
with which native Git asks whether an admission still holds and whether an attempt is current.
-/
import DimProofs.Ordinary.ClaimStore
import DimProofs.Ordinary.ResultStore

namespace Dim.Ordinary

open Relational

structure NativeAdmissionVerification where
  requestId : String
  descriptor : NativeOrdinaryDescriptor
  (descriptorDigest hostId capacity : String)

structure NativeAttemptVerification where
  (requestId reviewId attemptId descriptorDigest admissionGeneration hostId : String)
  capacity : String

structure VerificationStoreOptions where
  (serviceId capacityConfigDigest : String)
  capacities : List NativeCapacityPolicy

namespace VerificationStore

/-- `#activePolicy`. -/
def activePolicy (options : VerificationStoreOptions) (admissionGeneration : String) (now : Int)
    (db : AuthorityDatabase) : Option NativeAdmissionPolicy :=
  ((db.nativeAdmissions.get? admissionGeneration).filter fun a =>
    a.serviceId = options.serviceId && a.capacityConfigDigest = options.capacityConfigDigest && a.state = .active
      && now < a.expiresAt).map (·.policy)

def admitted (options : VerificationStoreOptions) (input : NativeAdmissionVerification) (now : Int)
    (db : AuthorityDatabase) : Bool :=
  match activePolicy options input.descriptor.admissionGeneration now db,
      capacityOf options.capacities input.hostId input.capacity with
  | some policy, some capacity => descriptorMatchesPolicy input.descriptor policy capacity
  | _, _ => false

def current (options : VerificationStoreOptions) (input : NativeAttemptVerification) (now : Int)
    (db : AuthorityDatabase) : Bool :=
  db.nativeAttemptAssignments.any fun attempt =>
    attempt.reviewId = input.reviewId && attempt.attemptId = input.attemptId
      && attempt.descriptorDigest = input.descriptorDigest
      && attempt.admissionGeneration = input.admissionGeneration && attempt.hostId = input.hostId
      && attempt.capacity = input.capacity
      && (db.nativeAdmissions.get? attempt.admissionGeneration).any (fun a =>
        a.serviceId = options.serviceId && a.capacityConfigDigest = options.capacityConfigDigest && a.state = .active
          && now < a.expiresAt)
      && (db.claims.get? attempt.claimId).any (·.state = .active)

end VerificationStore

/-- The rows that `currentResult` joins: a result, its claim, the admission and the report. -/
def ResultStore.currentResult (options : ResultStoreOptions) (input : NativeAttemptVerification)
    (db : AuthorityDatabase) : Bool :=
  db.hostResults.any fun result =>
    result.attemptId = input.attemptId && result.descriptorDigest = input.descriptorDigest
      && result.hostId = input.hostId && result.cleanupComplete
      && (db.claims.get? result.claimId).any fun c =>
        c.reviewId = input.reviewId && c.admissionGeneration = input.admissionGeneration
          && c.capacity = input.capacity
          && (db.reportOutbox.get? c.claimId).any (·.state ≠ .denied)
          && (db.nativeAdmissions.get? c.admissionGeneration).any fun a =>
            a.serviceId = options.serviceId && a.capacityConfigDigest = options.capacityConfigDigest
              && a.state = .active

/-! ## Answers under an admission that is not active -/

/-- The admission of the generation is active. -/
def AuthorityDatabase.grants (db : AuthorityDatabase) (generation : String) : Bool :=
  (db.nativeAdmissions.get? generation).any (·.state = .active)

variable {db : AuthorityDatabase}

theorem grants_of_any {generation : String} {p : NativeAdmission → Bool}
    (hp : ∀ a, p a = true → a.state = .active) (h : (db.nativeAdmissions.get? generation).any p = true) :
    db.grants generation = true := by
  unfold AuthorityDatabase.grants
  cases hget : db.nativeAdmissions.get? generation with
  | none =>
    rw [hget] at h
    cases h
  | some a =>
    rw [hget] at h
    simpa using hp a h

variable {now : Int} {options : VerificationStoreOptions}

theorem VerificationStore.admitted_grants {input : NativeAdmissionVerification}
    (h : admitted options input now db = true) :
    db.grants input.descriptor.admissionGeneration = true := by
  unfold admitted activePolicy at h
  split at h
  · rename_i policy capacity hpolicy hcapacity
    obtain ⟨a, ha, -⟩ := Option.map_eq_some_iff.mp hpolicy
    obtain ⟨hget, hcond⟩ := Option.filter_eq_some_iff.mp ha
    simp only [Bool.and_eq_true, decide_eq_true_eq] at hcond
    simp [AuthorityDatabase.grants, hget, hcond.1.2]
  · cases h

variable {input : NativeAttemptVerification}

theorem VerificationStore.current_grants (h : current options input now db = true) :
    db.grants input.admissionGeneration = true := by
  obtain ⟨attempt, -, hcond⟩ := Table.any_eq_true.mp h
  rw [Bool.and_eq_true, Bool.and_eq_true] at hcond
  obtain ⟨⟨hattempt, hadmission⟩, -⟩ := hcond
  simp only [Bool.and_eq_true, decide_eq_true_eq] at hattempt
  rw [← hattempt.1.1.2]
  refine grants_of_any ?_ hadmission
  intro a ha
  simp only [Bool.and_eq_true, decide_eq_true_eq] at ha
  exact ha.1.2

theorem ResultStore.currentResult_grants {options : ResultStoreOptions}
    (h : currentResult options input db = true) :
    db.grants input.admissionGeneration = true := by
  obtain ⟨result, -, hcond⟩ := Table.any_eq_true.mp h
  rw [Bool.and_eq_true] at hcond
  obtain ⟨c, -, hclaim⟩ := Option.any_eq_true _ _ |>.mp hcond.2
  rw [Bool.and_eq_true, Bool.and_eq_true] at hclaim
  obtain ⟨⟨hattempt, -⟩, hadmission⟩ := hclaim
  simp only [Bool.and_eq_true, decide_eq_true_eq] at hattempt
  rw [← hattempt.1.2]
  refine grants_of_any ?_ hadmission
  intro a ha
  simp only [Bool.and_eq_true, decide_eq_true_eq] at ha
  exact ha.2

end Dim.Ordinary
