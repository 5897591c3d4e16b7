/-
The results that the intake of the root CI service accepts, and the CHECKs on the texts of the tables they are stored in: the
patterns and the lengths that `RootCi.Schema` leaves out. `accept` is the operation of the store with those CHECKs.
-/
import DimProofs.Lib.JsonSize
import DimProofs.Qemu.AuthorityFiles
import DimProofs.RootCi.Invariant
import DimProofs.Terminal.Intake

namespace Dim.RootCi

open Relational Dim.Ordinary Terminal

/-! ## Stored texts -/

/-- `eventJson` of `accept`: the terminal event as `JSON.stringify` writes it. -/
def eventJson (event : NativeTerminalEvent) : String := Json.object (terminalEventMembers Json.object event)

/-- `requestJson` of `accept`. -/
def requestJson (request : NativeRootCiHostResultRequest) : String :=
  Json.object [("schemaVersion", "2"), ("requestId", Json.string request.requestId),
    ("generationId", Json.string request.generationId), ("claimId", Json.string request.claimId),
    ("resourceId", Json.string request.claimId), ("terminalEvent", eventJson request.terminalEvent),
      ("cleanupComplete", "true")]

theorem eventJson_within (request : NativeRootCiHostResultRequest) :
    (eventJson request.terminalEvent).utf8ByteSize ≤ (requestJson request).utf8ByteSize := by
  rw [requestJson, Json.adds_utf8ByteSize.object]
  simp only [List.map_cons, List.map_nil, List.sum_cons, List.sum_nil]
  omega

/-! ## CHECKs -/

/-- `substr(id, 15, 1) = '4' AND substr(id, 20, 1) IN ('8','9','a','b')`. -/
def versionFour (id : String) : Bool := id.toList[14]? = some '4' && id.toList[19]?.any ['8', '9', 'a', 'b'].contains

def uuidCheck (id : String) : Bool := id.length = 36 && versionFour id

/-- `length(x) = 64 AND x NOT GLOB '*[^0-9a-f]*'`. -/
def generationCheck (text : String) : Bool := text.length = 64 && text.toList.all Pattern.hex

/-- `length(x) = 71 AND x GLOB 'sha256:*' AND substr(x, 8) NOT GLOB '*[^0-9a-f]*'`. -/
def digestCheck (text : String) : Bool :=
  text.length = 71 && "sha256:".toList.isPrefixOf text.toList && (text.toList.drop 7).all Pattern.hex

/-- `length(CAST(x AS BLOB)) BETWEEN 1 AND 65536`. -/
def sizeCheck (json : String) : Bool := 1 ≤ json.utf8ByteSize && json.utf8ByteSize ≤ 65536

/-- The CHECKs on the texts of a row of `native_root_ci_host_results`. -/
def HostResultRow.textCheck (row : HostResultRow) : Bool :=
  uuidCheck row.requestId && generationCheck row.generationId && uuidCheck row.attemptId &&
    digestCheck row.descriptorDigest &&
    sizeCheck (requestJson row.request) && sizeCheck (eventJson row.terminalEvent) && digestCheck row.terminalEventDigest

/-- The CHECKs on the texts of a new row of `native_root_ci_report_outbox`. -/
def ReportRow.textCheck (row : ReportRow) : Bool :=
  sizeCheck (eventJson row.terminalEvent) && digestCheck row.terminalEventDigest

def requireCheck (check : Bool) : Except RootCiError Unit := if check then .ok () else .error (.constraint .check)

/-! ## The operation -/

section

variable [Sha256]

/-- The statements that store a result. -/
def storeResult (authenticatedHost demandId : String) (request : NativeRootCiHostResultRequest) (now : Int)
    (db : RootDatabase) : Except RootCiError RootDatabase := do
  requireCheck (hostResult authenticatedHost request now).textCheck
  let db ← insertHostResult (hostResult authenticatedHost request now) db
  requireCheck (pendingReport request now).textCheck
  let db ← insertReport (pendingReport request now) db
  markReported request.claimId demandId now db

/-- `NativeRootCiResultStore.accept`, with the checks of the texts; `now` is its second reading of the clock. -/
def accept (context : ServiceContext) (authenticatedHost : String) (request : NativeRootCiHostResultRequest)
    (checkedAt now : Int) : RootDatabase → Except RootCiError (NativeRootCiResultIntake × RootDatabase) :=
  acceptWith (storeResult authenticatedHost · request now) context authenticatedHost request checkedAt

/-- The report has texts of its result. -/
theorem pendingReport_check {authenticatedHost : String} {request : NativeRootCiHostResultRequest} {now : Int}
    (htext : (hostResult authenticatedHost request now).textCheck = true) :
    (pendingReport request now).textCheck = true := by
  simp only [HostResultRow.textCheck, Bool.and_eq_true] at htext
  simp only [ReportRow.textCheck, Bool.and_eq_true]
  exact ⟨htext.1.2, htext.2⟩

/-- The request is a first result of a claim that its host holds. -/
def Fresh (context : ServiceContext) (authenticatedHost : String) (request : NativeRootCiHostResultRequest) (checkedAt : Int)
    (db : RootDatabase) : Prop :=
  db.existingResult authenticatedHost request = none ∧
    ∃ row, currentClaim request.claimId authenticatedHost db = some row ∧ row.admits context request checkedAt db = true

end

/-! ## What the parser asks of the texts -/

section

variable [Sha256] {value : Value}

omit [Sha256] in
theorem text_ok {pattern : String → Bool} {label s : String} (h : text pattern label value = .ok s) :
    value = .string s ∧ pattern s = true := by
  cases value with
  | string t =>
    rw [text] at h
    split at h
    · rename_i hpattern
      cases h
      exact ⟨rfl, hpattern⟩
    · cases h
  | _ => cases h

theorem event_texts {event : NativeTerminalEvent} (h : parseNativeTerminalEvent value = .ok event) :
    uuidPattern event.payload.attemptId = true ∧ Pattern.digest event.payload.descriptorDigest = true := by
  obtain ⟨input, -, h⟩ := bind_ok.mp h
  obtain ⟨-, -, h⟩ := bind_ok.mp h
  obtain ⟨payload, -, h⟩ := bind_ok.mp h
  obtain ⟨descriptor, -, h⟩ := bind_ok.mp h
  obtain ⟨descriptorDigest, hdigest, h⟩ := bind_ok.mp h
  obtain ⟨-, -, h⟩ := bind_ok.mp h
  obtain ⟨completion, -, h⟩ := bind_ok.mp h
  obtain ⟨result, -, h⟩ := bind_ok.mp h
  obtain ⟨-, -, h⟩ := bind_ok.mp h
  obtain ⟨startedAt, -, h⟩ := bind_ok.mp h
  obtain ⟨finishedAt, -, h⟩ := bind_ok.mp h
  obtain ⟨-, -, h⟩ := bind_ok.mp h
  obtain ⟨stdout, -, h⟩ := bind_ok.mp h
  obtain ⟨stderr, -, h⟩ := bind_ok.mp h
  obtain ⟨-, -, h⟩ := bind_ok.mp h
  obtain ⟨-, -, h⟩ := bind_ok.mp h
  obtain ⟨eventId, -, h⟩ := bind_ok.mp h
  obtain ⟨occurredAt, -, h⟩ := bind_ok.mp h
  obtain ⟨reviewId, -, h⟩ := bind_ok.mp h
  obtain ⟨attemptId, hattempt, h⟩ := bind_ok.mp h
  obtain ⟨attempt, -, h⟩ := bind_ok.mp h
  obtain ⟨hostId, -, h⟩ := bind_ok.mp h
  obtain ⟨capacity, -, h⟩ := bind_ok.mp h
  cases pure_ok.mp h
  exact ⟨(text_ok hattempt).2, (text_ok hdigest).2⟩

theorem root_event_texts {event : NativeTerminalEvent} (h : parseNativeRootCiTerminalEvent value = .ok event) :
    uuidPattern event.payload.attemptId = true ∧ Pattern.digest event.payload.descriptorDigest = true := by
  obtain ⟨input, -, h⟩ := bind_ok.mp h
  obtain ⟨-, -, h⟩ := bind_ok.mp h
  obtain ⟨payload, -, h⟩ := bind_ok.mp h
  obtain ⟨-, -, h⟩ := bind_ok.mp h
  exact event_texts h

/-- The texts of a request that the parser accepts. -/
theorem request_texts {request : NativeRootCiHostResultRequest}
    (h : parseNativeRootCiHostResultRequest value = .ok request) :
    uuidPattern request.requestId = true ∧ Pattern.hexString 64 request.generationId = true ∧
      uuidPattern request.terminalEvent.payload.attemptId = true ∧
      Pattern.digest request.terminalEvent.payload.descriptorDigest = true := by
  obtain ⟨input, -, h⟩ := bind_ok.mp h
  obtain ⟨-, -, h⟩ := bind_ok.mp h
  obtain ⟨cleanupComplete, -, h⟩ := bind_ok.mp h
  obtain ⟨-, -, h⟩ := bind_ok.mp h
  obtain ⟨claimId, -, h⟩ := bind_ok.mp h
  obtain ⟨resourceId, -, h⟩ := bind_ok.mp h
  obtain ⟨-, -, h⟩ := bind_ok.mp h
  obtain ⟨requestId, hrequest, h⟩ := bind_ok.mp h
  obtain ⟨generationId, hgeneration, h⟩ := bind_ok.mp h
  obtain ⟨terminalEvent, hevent, h⟩ := bind_ok.mp h
  cases pure_ok.mp h
  exact ⟨(text_ok hrequest).2, (text_ok hgeneration).2, root_event_texts hevent⟩

end

/-! ## Patterns and CHECKs -/

theorem uuidCheck_of {id : String} (h : uuidPattern id = true) : uuidCheck id = versionFour id := by
  have hlength : id.toList.length = 36 := Pattern.length_of_sequence h
  rw [uuidCheck, ← String.length_toList, hlength]
  simp

theorem generationCheck_of {text : String} (h : Pattern.hexString 64 text = true) : generationCheck text = true := by
  have hnarrow : ∀ p ∈ List.replicate 64 Pattern.hex, Pattern.Narrows p Pattern.hex := by
    intro p hp
    rw [List.eq_of_mem_replicate hp]
    exact fun _ hc => hc
  obtain ⟨hall, hlength⟩ := Pattern.sequence_all h hnarrow
  rw [generationCheck, hall, ← String.length_toList, hlength]
  simp

/-- A digest is its algorithm and 64 digits. -/
theorem digestCheck_of {text : String} (h : Pattern.digest text = true) : digestCheck text = true := by
  obtain ⟨algorithm, digits, htext, halgorithm, hdigits⟩ := Pattern.sequence_append.mp h
  rw [Pattern.sequence_only.mp halgorithm] at htext
  have hnarrow : ∀ p ∈ List.replicate 64 Pattern.hex, Pattern.Narrows p Pattern.hex := by
    intro p hp
    rw [List.eq_of_mem_replicate hp]
    exact fun _ hc => hc
  obtain ⟨hall, hlength⟩ := Pattern.sequence_all hdigits hnarrow
  have halgorithm : "sha256:".toList = ['s', 'h', 'a', '2', '5', '6', ':'] := by decide +kernel
  rw [digestCheck, ← String.length_toList, htext, halgorithm]
  simp [hall, hlength]

theorem digest_of_hex {hash : String} (h : Pattern.hexString 64 hash = true) :
    Pattern.digest ("sha256:" ++ hash) = true := by
  rw [Pattern.digest, String.toList_append]
  exact Pattern.sequence_append.mpr ⟨_, _, rfl, Pattern.sequence_only.mpr rfl, h⟩

theorem sizeCheck_object (members : List (String × String)) :
    sizeCheck (Json.object members) = decide ((Json.object members).utf8ByteSize ≤ 65536) := by
  have hbrace : "\x7b".utf8ByteSize = 1 := by decide +kernel
  have hpos : 1 ≤ (Json.object members).utf8ByteSize := by
    rw [Json.object, Json.adds_utf8ByteSize.append, Json.adds_utf8ByteSize.append, hbrace]
    omega
  rw [sizeCheck, decide_eq_true hpos, Bool.true_and]

/-! ## Stored results -/

section

variable [Qemu.Authority.HexSha256] {value : Value} {request : NativeRootCiHostResultRequest}

/-- What the CHECKs ask of a request that the parser accepts. -/
def Storable (request : NativeRootCiHostResultRequest) : Prop :=
  versionFour request.requestId = true ∧ versionFour request.terminalEvent.payload.attemptId = true ∧
    (requestJson request).utf8ByteSize ≤ 65536

theorem textCheck_iff (h : parseNativeRootCiHostResultRequest value = .ok request) (authenticatedHost : String) (now : Int) :
    (hostResult authenticatedHost request now).textCheck = true ↔ Storable request := by
  obtain ⟨hrequest, hgeneration, hattempt, hdigest⟩ := request_texts h
  have hevent : digestCheck (nativeRootCiTerminalEventDigest request.terminalEvent) = true :=
    digestCheck_of (digest_of_hex (Qemu.Authority.HexSha256.pattern _))
  have hsize := eventJson_within request
  simp only [HostResultRow.textCheck, hostResult, uuidCheck_of hrequest, generationCheck_of hgeneration,
    uuidCheck_of hattempt, digestCheck_of hdigest, hevent, Bool.and_true, Bool.and_eq_true]
  have hrequestSize : sizeCheck (requestJson request) = decide ((requestJson request).utf8ByteSize ≤ 65536) :=
    sizeCheck_object _
  have heventSize : sizeCheck (eventJson request.terminalEvent) =
    decide ((eventJson request.terminalEvent).utf8ByteSize ≤ 65536) :=
    sizeCheck_object _
  rw [hrequestSize, heventSize, decide_eq_true_iff, decide_eq_true_iff]
  constructor
  · rintro ⟨⟨⟨hrequest, hattempt⟩, hfits⟩, -⟩
    exact ⟨hrequest, hattempt, hfits⟩
  · rintro ⟨hrequest, hattempt, hfits⟩
    exact ⟨⟨⟨hrequest, hattempt⟩, hfits⟩, hsize.trans hfits⟩

end

section

variable [Sha256] {request : NativeRootCiHostResultRequest} {context : ServiceContext} {authenticatedHost : String}
  {checkedAt now : Int} {db : RootDatabase}

/-- The rows of the claim change state. -/
theorem markReported_of {row : CurrentClaim} (hrow : currentClaim request.claimId authenticatedHost db = some row)
    (hadmits : row.admits context request checkedAt db = true) (hnow : 0 < now) {hostResults : Table HostResultRow}
    {reportOutbox : Table ReportRow} :
    ∃ db', markReported request.claimId row.c.demandId now { db with hostResults, reportOutbox } = .ok db' := by
  obtain ⟨hc, -, hr, hj⟩ := currentClaim_eq_some.mp hrow
  obtain ⟨hd, -, -⟩ := joined_eq_some.mp hj
  obtain ⟨-, hcs, hrs, hds, -⟩ := row.admitted hadmits
  have hclaim : ∃ claims, db.claims.updateOne RootCiError.resultStore
    (fun c => c.claimId = request.claimId && c.state = .active)
      (fun c => { c with state := .reported, updatedAt := now }) = .ok claims := by
    refine Table.updateOne_of (Table.get?_mem hc) ?_ ?_ ?_ ?_
    · simpa [hcs] using Table.get?_key hc
    · intro s hs hp
      simp only [Bool.and_eq_true, decide_eq_true_eq] at hp
      exact db.claims.eq_of_conflict hs (Table.get?_mem hc) (conflict_of_key (hp.1.trans (Table.get?_key hc).symm))
    · have hcheck := db.claims.checked _ (Table.get?_mem hc)
      simp only [Schema.check, Bool.and_eq_true, decide_eq_true_eq] at hcheck ⊢
      exact ⟨hcheck.1, hnow⟩
    · intro s hs hconflict
      simpa [Conflict, Schema.clash, hcs] using hconflict
  have hreceipt : ∃ receipts, db.claimReceipts.updateOne RootCiError.resultStore
      (fun r => r.claimId = request.claimId && r.state = .active)
      (fun r => { r with state := .reported, updatedAt := now }) = .ok receipts := by
    refine Table.updateOne_of (Table.get?_mem hr) ?_ ?_ ?_ ?_
    · simpa [hrs] using Table.get?_key hr
    · intro s hs hp
      simp only [Bool.and_eq_true, decide_eq_true_eq] at hp
      exact db.claimReceipts.eq_of_conflict hs (Table.get?_mem hr) (conflict_of_key (hp.1.trans (Table.get?_key hr).symm))
    · have hcheck := db.claimReceipts.checked _ (Table.get?_mem hr)
      simp only [Schema.check, Bool.and_eq_true, decide_eq_true_eq] at hcheck ⊢
      exact ⟨hcheck.1, hnow⟩
    · intro s hs hconflict
      simpa [Conflict, Schema.clash] using hconflict
  have hdemand : ∃ demands, db.demands.updateOne RootCiError.resultStore
      (fun d => d.demandId = row.c.demandId && d.state = .active)
      (fun d => { d with state := .reported, updatedAt := now, terminalAt := d.terminalAt }) = .ok demands := by
    refine Table.updateOne_of (Table.get?_mem hd) ?_ ?_ ?_ ?_
    · simpa [hds] using Table.get?_key hd
    · intro s hs hp
      simp only [Bool.and_eq_true, decide_eq_true_eq] at hp
      exact db.demands.eq_of_conflict hs (Table.get?_mem hd) (conflict_of_key (hp.1.trans (Table.get?_key hd).symm))
    · have hcheck := db.demands.checked _ (Table.get?_mem hd)
      simp only [Schema.check, Bool.and_eq_true, decide_eq_true_eq] at hcheck ⊢
      exact ⟨hcheck.1, hnow⟩
    · intro s hs hconflict
      simpa [Conflict, Schema.clash] using hconflict
  obtain ⟨claims, hclaim⟩ := hclaim
  obtain ⟨claimReceipts, hreceipt⟩ := hreceipt
  obtain ⟨demands, hdemand⟩ := hdemand
  refine ⟨{ db with hostResults, reportOutbox, claims, claimReceipts, demands }, ?_⟩
  simp only [markReported, moveClaim, moveDemand]
  refine bind_ok.mpr ⟨{ db with hostResults, reportOutbox, claims }, bind_ok.mpr ⟨claims, hclaim, rfl⟩, ?_⟩
  refine bind_ok.mpr ⟨claimReceipts, hreceipt, ?_⟩
  exact bind_ok.mpr ⟨demands, hdemand, rfl⟩

/-- A first result whose texts pass their CHECKs is stored. -/
theorem storeResult_of (hi : Inv db) (hnone : db.existingResult authenticatedHost request = none) {row : CurrentClaim}
    (hrow : currentClaim request.claimId authenticatedHost db = some row)
    (hadmits : row.admits context request checkedAt db = true) (hnow : 0 < now)
    (htext : (hostResult authenticatedHost request now).textCheck = true) :
    ∃ db', storeResult authenticatedHost row.c.demandId request now db = .ok db' := by
  obtain ⟨hc, -, hr, hj⟩ := currentClaim_eq_some.mp hrow
  obtain ⟨hd, -, -⟩ := joined_eq_some.mp hj
  have hstate := (row.admitted hadmits).claim
  have hview : db.view request.claimId = some ⟨row.c, row.d, db.claimReceipts.get? request.claimId,
      db.hostResults.get? request.claimId, db.reportOutbox.get? request.claimId⟩ := view_eq_some.mpr ⟨hc, hd, rfl, rfl, rfl⟩
  have hreport : db.reportOutbox.get? request.claimId = none := by
    simpa [View.status] using ((hi.fits _ _ hview).status.of_active hstate).2.2.2
  obtain ⟨hostResults, hresults⟩ := Table.insert_of (ε := RootCiError) (t := db.hostResults)
      (r := hostResult authenticatedHost request now) (by simp [Schema.check, hostResult, hnow]) (by
    intro s hs hconflict
    have hne := List.find?_eq_none.mp hnone s hs
    simp only [Bool.or_eq_true, Bool.and_eq_true, decide_eq_true_eq, not_or, not_and] at hne
    simp only [Conflict, HostResultRow.key_eq, Schema.clash, hostResult, Bool.and_eq_true] at hconflict
    rcases hconflict with hkey | ⟨hhost, hid⟩ | ⟨hhost, hid⟩
    · exact hne.1 hkey
    · exact hne.2 (of_decide_eq_true hhost) (of_decide_eq_true hid)
    · exact hne.2 (of_decide_eq_true hhost).symm (of_decide_eq_true hid).symm)
  obtain ⟨reportOutbox, hreports⟩ := Table.insert_of (ε := RootCiError) (t := db.reportOutbox)
      (r := pendingReport request now) (by simp [Schema.check, pendingReport, hnow]) (by
    intro s hs hconflict
    simp only [Conflict, ReportRow.key_eq, Schema.clash, Bool.false_eq_true, or_false] at hconflict
    exact Table.get?_eq_none.mp hreport s hs hconflict)
  have hmarked : ∃ db', markReported request.claimId row.c.demandId now { db with hostResults, reportOutbox } = .ok db' :=
    markReported_of hrow hadmits hnow
  obtain ⟨db', hmark⟩ := hmarked
  refine ⟨db', ?_⟩
  have hreportText := pendingReport_check htext
  have hstored : hostResults.get? request.claimId = some (hostResult authenticatedHost request now) := by
    rw [Table.get?_insert hresults]
    exact if_pos rfl
  rw [storeResult]
  refine bind_ok.mpr ⟨(), if_pos htext, ?_⟩
  refine bind_ok.mpr ⟨{ db with hostResults }, ?_, ?_⟩
  · refine bind_ok.mpr ⟨(), ?_, bind_ok.mpr ⟨hostResults, hresults, rfl⟩⟩
    have hsome : (db.claims.get? (hostResult authenticatedHost request now).claimId).isSome = true := by
      rw [show (hostResult authenticatedHost request now).claimId = request.claimId from rfl, hc]
      rfl
    exact if_pos hsome
  · refine bind_ok.mpr ⟨(), if_pos hreportText, ?_⟩
    refine bind_ok.mpr ⟨{ db with hostResults, reportOutbox }, ?_, hmark⟩
    refine bind_ok.mpr ⟨(), ?_, bind_ok.mpr ⟨reportOutbox, hreports, rfl⟩⟩
    have hsome : (hostResults.get? (pendingReport request now).claimId).isSome = true := by
      rw [show (pendingReport request now).claimId = request.claimId from rfl, hstored]
      rfl
    exact if_pos hsome

end

/-! ## Accepted requests -/

/-- In every history, an accepted request is answered with a verdict exactly where it is not the first result of a claim
that its
host holds, or the CHECKs admit its texts; where they do not, the constraint is violated. -/
theorem accepted_handled_iff [Qemu.Authority.HexSha256] (actions : List Action) (context : ServiceContext)
    (authenticatedHost : String) (value : Value) (request : NativeRootCiHostResultRequest) (checkedAt now : Int)
    (hparsed : parseNativeRootCiHostResultRequest value = .ok request) (hnow : 0 < now) :
    ((∃ answer, accept context authenticatedHost request checkedAt now (RootDatabase.empty.run actions) = .ok answer) ↔
      ¬ Fresh context authenticatedHost request checkedAt (RootDatabase.empty.run actions) ∨ Storable request) ∧
    ∀ error, accept context authenticatedHost request checkedAt now (RootDatabase.empty.run actions) = .error error →
      error = .constraint .check := by
  have hi : Inv (RootDatabase.empty.run actions) := Inv.empty.run actions
  generalize RootDatabase.empty.run actions = db at hi
  have htext := textCheck_iff hparsed authenticatedHost now
  simp only [accept, acceptWith, Fresh]
  split
  · rename_i existing hexisting
    exact ⟨iff_of_true ⟨_, rfl⟩ (.inl (by simp [hexisting])), nofun⟩
  · rename_i hexisting
    split
    · rename_i hrow
      exact ⟨iff_of_true ⟨_, rfl⟩ (.inl (by simp [hrow])), nofun⟩
    · rename_i row hrow
      by_cases hadmits : row.admits context request checkedAt db = true
      · rw [if_neg (by simp [hadmits])]
        by_cases hstorable : Storable request
        · obtain ⟨db', hstored⟩ := storeResult_of hi hexisting hrow hadmits hnow (htext.mpr hstorable)
          rw [hstored]
          exact ⟨iff_of_true ⟨_, rfl⟩ (.inr hstorable), nofun⟩
        · have hrefused : storeResult authenticatedHost row.c.demandId request now db = .error (.constraint .check) := by
            rw [storeResult, requireCheck, if_neg (fun hcheck => hstorable (htext.mp hcheck))]
            rfl
          rw [hrefused]
          refine ⟨iff_of_false ?_ ?_, ?_⟩
          · rintro ⟨answer, h⟩
            cases h
          · rintro (hfresh | hstored)
            · exact hfresh ⟨hexisting, row, hrow, hadmits⟩
            · exact hstorable hstored
          · intro error h
            cases h
            rfl
      · rw [if_pos (by simpa using hadmits)]
        refine ⟨iff_of_true ⟨_, rfl⟩ (.inl ?_), nofun⟩
        rintro ⟨-, row', hrow', hadmits'⟩
        cases hrow.symm.trans hrow'
        exact hadmits hadmits'

namespace Intake.Sample

def hash : String := "0123456789abcdef0123456789abcdef0123456789abcdef0123456789abcdef"

@[reducible] def sha256 : Qemu.Authority.HexSha256 where
  hex _ := hash
  pattern _ := by decide +kernel

attribute [local instance] sha256

def id (n : Char) : String := "00000000-0000-4000-8000-00000000000" ++ String.ofList [n]

def image : String := "runner@sha256:" ++ hash

def bounds : NativeResourceBounds := { cpu := 1, memoryBytes := 1, pids := 1, wallClockSeconds := 1, outputBytes := 1 }

theorem leases_last : (0 : Int) < 1000 ∧ (0 : Int) < 100 := by decide

def context : ServiceContext :=
  { serviceId := "ordinary-main", generationId := hash, serviceEpochId := id '1',
    capacities := [{ hostId := "host-a", capacity := "small", runnerBaseImage := image, jobBaseImage := image, bounds }],
    eligibilityLeaseMilliseconds := 1000, claimLeaseMilliseconds := 100, reporterUsername := "reporter",
      leases := leases_last }

def policy : NativeRootCiPolicy :=
  { protectedRef := "refs/heads/main", policyRevision := "1", requiredReviewRevision := "1", requiredJobSetRevision := "1",
    requiredJobs := [{ name := "test", kind := .ordinarySysbox }], requiredReviewerIds := [], pathReviewerRules := [] }

def proof : NativeRootCiPolicyProof :=
  { servingGenerationId := hash, projectId := "project-a"
    currentRoot :=
      { importNonce := "nonce", sequence := 1, protectedRef := "refs/heads/main", commit := hash, tree := hash,
        policyDigest := Sha256.hex policy.json }
    policy
    parsed := by
      have hroot : isObjectId hash = true := by decide +kernel
      simp [NativeRootCiCurrentRoot.matchesPolicy, policy, hroot] }

def event : NativeRootCiReviewEvent :=
  { eventId := hash, projectId := "project-a", protectedRef := "refs/heads/main", reviewId := hash, envelopeId := hash,
    expectedProtectedHead := hash, candidateCommit := hash, candidateTree := hash, policyRevision := "1",
    requiredReviewRevision := "1", qualityRevision := "1", jobName := "test" }

def claim : NativeRootCiClaim :=
  { serviceId := "ordinary-main", generationId := hash, serviceEpochId := id '1', requestId := id '2', claimId := id '3',
    demandId := id '4', admissionGeneration := "admission", eventDigest := eventDigest event, event,
    admission := { projectId := "project-a", importNonce := "nonce", rootSequence := 1, protectedRef := "refs/heads/main",
                   rootCommit := hash, rootTree := hash, policyDigest := Sha256.hex policy.json,
                   capacityConfigDigest := context.capacityConfigDigest, leaseExpiresAt := 1001 },
    hostId := "host-a", capacity := "small", runnerBaseImage := image, jobBaseImage := image, bounds }

def descriptor : NativeOrdinaryDescriptor :=
  { projectId := "project-a", repositoryId := "root", protectedRef := "refs/heads/main", expectedProtectedHead := hash,
    candidateCommit := hash, candidateTree := hash, policyRevision := "1", requiredReviewRevision := "1",
    requiredJobSetRevision := "1", admissionGeneration := "admission", jobName := "test", runnerBaseImage := image, bounds,
    configBlob := { objectId := hash, sha256 := "sha256:" ++ hash },
    script := { objectId := hash, sha256 := "sha256:" ++ hash, path := ".dim/ci/jobs/test.bash" }, jobImage := image }

def issuance : NativeJobAttemptIssuance :=
  { issuanceRequestId := id '3', attemptId := id '5', reviewId := hash, attempt := 1, descriptor,
    descriptorDigest := nativeDescriptorDigest descriptor, hostId := "host-a", capacity := "small", issuedBy := "issuer",
    issuedAt := "2024-01-01T00:00:00Z" }

def step (operation : Operation) : Action := ⟨context, operation⟩

/-- An active claim. -/
def activated : List Action :=
  [step (.activateAdmissions 1), step (.activateEpoch 1), step (.register proof "admission" 1),
    step (.commitEvent { generationId := hash, event, admissionGeneration := "admission" } { proof with event }
      (id '4') 2 2 2),
    step (.reserve { requestId := id '2', generationId := hash, hostId := "host-a", capacity := "small" } (id '3') 3 3 3 3),
    step (.activate { requestId := id '6', generationId := hash, claim, issuance, bound := by decide +kernel } 4 4)]

def payload : Value :=
  .object [("executionKind", .string "ordinary-sysbox"), ("reviewId", .string hash), ("attemptId", .string (id '5')),
    ("attempt", .number 1),
    ("descriptor", .object [("projectId", .string "project-a"), ("repositoryId", .string "root"),
      ("protectedRef", .string "refs/heads/main"), ("expectedProtectedHead", .string hash),
        ("candidateCommit", .string hash),
      ("candidateTree", .string hash), ("policyRevision", .string "1"), ("requiredReviewRevision", .string "1"),
      ("requiredJobSetRevision", .string "1"), ("admissionGeneration", .string "admission"), ("jobName", .string "test"),
      ("runnerBaseImage", .string image),
      ("bounds", .object [("cpu", .string "1"), ("memoryBytes", .string "1"), ("pids", .string "1"),
        ("wallClockSeconds", .string "1"), ("outputBytes", .string "1")]),
      ("evidenceClass", .string "candidate-controlled"),
      ("configBlob", .object [("objectId", .string hash), ("sha256", .string ("sha256:" ++ hash))]),
      ("script", .object [("objectId", .string hash), ("sha256", .string ("sha256:" ++ hash)),
        ("path", .string ".dim/ci/jobs/test.bash")]),
      ("argv", .ofTexts descriptorArgv), ("jobImage", .string image)]),
    ("descriptorDigest", .string ("sha256:" ++ hash)), ("hostId", .string "host-a"), ("capacity", .string "small"),
    ("startedAt", .string "2024-01-01T00:00:00Z"), ("finishedAt", .string "2024-01-01T00:01:00Z"),
      ("result", .string "success"),
    ("completion", .object [("kind", .string "exited"), ("exitCode", .number 0)]),
    ("stdout", .object [("bytes", .string "0"), ("sha256", .string ("sha256:" ++ hash)), ("truncated", .boolean false)]),
    ("stderr", .object [("bytes", .string "0"), ("sha256", .string ("sha256:" ++ hash)), ("truncated", .boolean false)])]

/-- The body of a result request. -/
def body (requestId : String) : Value :=
  .object [("schemaVersion", .number 2), ("requestId", .string requestId), ("generationId", .string hash),
    ("claimId", .string (id '3')), ("resourceId", .string (id '3')),
    ("terminalEvent", .object [("schemaVersion", .number 3), ("eventId", .string (id '7')),
      ("occurredAt", .string "2024-01-01T00:01:00Z"), ("eventType", .string "dim.ci.job.completed"), ("payload", payload)]),
    ("cleanupComplete", .boolean true)]

def request (requestId : String) : NativeRootCiHostResultRequest :=
  { requestId, generationId := hash, claimId := id '3'
    terminalEvent :=
      { eventId := id '7', occurredAt := "2024-01-01T00:01:00Z"
        payload :=
          { reviewId := hash, attemptId := id '5', attempt := 1, descriptor, descriptorDigest := "sha256:" ++ hash,
            hostId := "host-a", capacity := "small", startedAt := "2024-01-01T00:00:00Z",
              finishedAt := "2024-01-01T00:01:00Z",
            result := .success, completion := .exited 0,
            stdout := { bytes := 0, sha256 := "sha256:" ++ hash, truncated := false },
            stderr := { bytes := 0, sha256 := "sha256:" ++ hash, truncated := false } } } }

theorem payload_bytes : (rootPayload Json.object (request (id '8')).terminalEvent.payload).utf8ByteSize = 1938 := by
  obtain ⟨hhash, hdigest, himage⟩ : (Json.string hash).utf8ByteSize = 66 ∧
      (Json.string ("sha256:" ++ hash)).utf8ByteSize = 73 ∧ (Json.string image).utf8ByteSize = 80 := by decide +kernel
  have hdescriptor : (descriptor.text Json.object).utf8ByteSize = 1236 := by
    simp only [descriptor, NativeOrdinaryDescriptor.text, Json.adds_utf8ByteSize.object, List.map_cons, List.map_nil,
      List.sum_cons, List.sum_nil, hhash, hdigest, himage]
    decide +kernel
  simp only [request, rootPayload, NativeTerminalPayload.members, Json.adds_utf8ByteSize.object, List.map_cons,
    List.map_nil, List.sum_cons, List.sum_nil, hhash, hdigest, hdescriptor]
  decide +kernel

/-- A UUID of version 1. -/
def versionOne : String := "00000000-0000-1000-8000-000000000008"

theorem text_of {pattern : String → Bool} {label s : String} (h : pattern s = true) :
    text pattern label (.string s) = .ok s := if_pos h

def fields : Value → Members
  | .object members => members
  | _ => []

theorem body_parsed {requestId : String} (h : uuidPattern requestId = true) :
    parseNativeRootCiHostResultRequest (body requestId) = .ok (request requestId) := by
  have hid : uuidPattern (id '3') = true := by decide +kernel
  have hhash : Pattern.hexString 64 hash = true := by decide +kernel
  have hevent : parseNativeRootCiTerminalEvent (get (fields (body "")) "terminalEvent") = .ok (request "").terminalEvent :=
    ok_of_toOption (by decide +kernel)
  refine bind_ok.mpr ⟨fields (body requestId), rfl, bind_ok.mpr ⟨(), rfl, ?_⟩⟩
  refine bind_ok.mpr ⟨true, rfl, bind_ok.mpr ⟨(), rfl, ?_⟩⟩
  refine bind_ok.mpr ⟨id '3', text_of hid, bind_ok.mpr ⟨id '3', text_of hid, bind_ok.mpr ⟨(), rfl, ?_⟩⟩⟩
  exact bind_ok.mpr ⟨requestId, text_of h, bind_ok.mpr ⟨hash, text_of hhash, bind_ok.mpr ⟨_, hevent, rfl⟩⟩⟩

end Intake.Sample

section

attribute [local instance] Intake.Sample.sha256

theorem accepted_handled_sample :
    ∃ answer, accept Intake.Sample.context "host-a" (Intake.Sample.request (Intake.Sample.id '8')) 5 5
    (RootDatabase.empty.run Intake.Sample.activated) = .ok answer := by
  refine (accepted_handled_iff Intake.Sample.activated Intake.Sample.context "host-a" _ _ 5 5
    (Intake.Sample.body_parsed (by decide +kernel)) (by decide)).1.mpr (.inr ⟨?_, ?_, ?_⟩)
  · decide +kernel
  · decide +kernel
  · -- the long texts are counted once
    simp only [requestJson, eventJson, terminalEventMembers, NativeTerminalEvent.members, Json.adds_utf8ByteSize.object,
      List.map_cons, List.map_nil, List.sum_cons, List.sum_nil, Intake.Sample.payload_bytes]
    decide +kernel

/-- The parser accepts request ids of every version, the table only those of version 4. -/
theorem version_one_refused :
    parseNativeRootCiHostResultRequest (Intake.Sample.body Intake.Sample.versionOne) =
        .ok (Intake.Sample.request Intake.Sample.versionOne) ∧
      ¬ ∃ answer, accept Intake.Sample.context "host-a" (Intake.Sample.request Intake.Sample.versionOne) 5 5
        (RootDatabase.empty.run Intake.Sample.activated) = .ok answer := by
  refine ⟨Intake.Sample.body_parsed (by decide +kernel), ?_⟩
  rintro ⟨answer, h⟩
  have hrefused : (accept Intake.Sample.context "host-a" (Intake.Sample.request Intake.Sample.versionOne) 5 5
      (RootDatabase.empty.run Intake.Sample.activated)).toOption.isSome = false := by decide +kernel
  rw [h] at hrefused
  cases hrefused

end

end Dim.RootCi
