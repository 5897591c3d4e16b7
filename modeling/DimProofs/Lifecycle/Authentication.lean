/-
Grants among calls that make and remove them. A grant file that is opened while no one writes it holds the token
that was drawn for it, and keeps it; whoever authenticates with a token has read both the grant and the record it
is for.
-/
import DimProofs.Lifecycle.Listing
import DimProofs.Lifecycle.Tokens

namespace Dim.Lifecycle

open Effectful Files

variable [Format] {lists grants : Prop} {K : World → World → Prop} {i : Nat} {op : Operation}
  {acts : (e : Effect) → World → Answer e → World → Prop} {rely : World → World → Prop} {w w' : World}
  {audience : GrantAudience} {name workspaceId random token : String}

omit [Format] in
/-- The grant is in its file, with the token. -/
def Granted (audience : GrantAudience) (name workspaceId token : String) (w : World) : Prop :=
  ∃ k, w.lookup (.grants audience) (grantFile name workspaceId) = some k ∧ Closed k (token ++ "\n") w

omit [Format] in
/-- No step removes the grant. -/
def KeepsGrant (K : World → World → Prop) (audience : GrantAudience) (name workspaceId : String) : Prop :=
  ∀ w w' k, K w w' → w.lookup (.grants audience) (grantFile name workspaceId) = some k →
    w'.lookup (.grants audience) (grantFile name workspaceId) = some k

/-- The token was drawn for the grant. -/
def TokenOf (w : World) (audience : GrantAudience) (name workspaceId token : String) : Prop :=
  ∃ random, Drawn w audience name workspaceId random ∧ validWorkspaceId random = true ∧
    token = grantToken name workspaceId random

section
omit [Format]

theorem TokenOf.later (h : TokenOf w audience name workspaceId token) (hdrawn : w.drawn ⊆ w'.drawn) :
    TokenOf w' audience name workspaceId token := by
  obtain ⟨random, hd, hr, ht⟩ := h
  exact ⟨random, hd.later hdrawn, hr, ht⟩

theorem TokenOf.trim (h : TokenOf w audience name workspaceId token) : trim (token ++ "\n") = token := by
  obtain ⟨random, hd, hr, rfl⟩ := h
  exact trim_grantToken hd.identified hr

theorem append_newline_injective {s t : String} (h : s ++ "\n" = t ++ "\n") : s = t := by
  have htext := congrArg String.toList h
  rw [String.toList_append, String.toList_append] at htext
  exact String.toList_inj.mp (List.append_cancel_right htext)

end

/-- What a grant file holds that no one writes. -/
theorem Whole.tokenOf (h : Whole grants w) (hgrants : grants) {k : Nat} (hid : validWorkspaceId workspaceId = true)
    (hk : w.lookup (.grants audience) (grantFile name workspaceId) = some k) (hclosed : ∀ j, (j, k) ∉ w.handles) :
    ∃ token, TokenOf w audience name workspaceId token ∧ Closed k (token ++ "\n") w := by
  rcases h.granted hgrants audience _ k hk with ⟨j, hj⟩ | ⟨name', workspaceId', random, hfile, hd, htext⟩
  · exact absurd hj (hclosed j)
  · obtain ⟨rfl, rfl⟩ := grantFile_injective hid hd.identified hfile
    exact ⟨_, ⟨random, hd, h.drawnValid _ _ hd.drawn, rfl⟩, htext, hclosed⟩

namespace Among

variable (H : Among lists grants K i op acts rely)
include H

/-! ## The steps of a grant -/

theorem stable_tokenOf : Stable rely fun w => TokenOf w audience name workspaceId token :=
  H.stable fun _ _ _ _ _ hd _ h => h.later hd.drawn

/-- A grant that no step removes stays where it is. -/
theorem stable_granted (k : Nat) : Stable rely fun w =>
    KeepsGrant K audience name workspaceId → w.lookup (.grants audience) (grantFile name workspaceId) = some k :=
  H.stable fun w w' _ _ _ _ hK h hkeeps => hkeeps w w' k hK (h hkeeps)

/-- What a grant file was found to hold. -/
def FoundGrant (K : World → World → Prop) (audience : GrantAudience) (name workspaceId : String) (k : Nat) (token : String)
    (w : World) : Prop :=
  (TokenOf w audience name workspaceId token ∧ Closed k (token ++ "\n") w) ∧
    (KeepsGrant K audience name workspaceId → w.lookup (.grants audience) (grantFile name workspaceId) = some k)

theorem stable_foundGrant (k : Nat) :
    Stable rely (FoundGrant K audience name workspaceId k token) :=
  (H.stable_tokenOf.and (H.stable_closed _ _)).and (H.stable_granted k)

theorem openGrant (hgrants : grants) (hw : Whole grants w)
    (hid : validWorkspaceId workspaceId = true) {a : Option Nat}
    (h : acts (.openFile (.grants audience) (grantFile name workspaceId)) w a w') :
    w' = w ∧ K w w ∧ ((a = none ∧ w.lookup (.grants audience) (grantFile name workspaceId) = none) ∨
      ∃ k token, a = some k ∧ w.lookup (.grants audience) (grantFile name workspaceId) = some k ∧
        FoundGrant K audience name workspaceId k token w) := by
  obtain ⟨hclosed, ⟨choice, hp⟩, hK⟩ := H.acts _ _ _ _ h
  simp only [perform, Option.some.injEq, Prod.mk.injEq] at hp
  obtain ⟨rfl, rfl⟩ := hp
  refine ⟨rfl, hK, ?_⟩
  cases hk : w.lookup (.grants audience) (grantFile name workspaceId) with
  | none => exact .inl ⟨hk, rfl⟩
  | some k =>
    obtain ⟨token, htoken, hfile⟩ := hw.tokenOf hgrants hid hk (hclosed hgrants k hk)
    exact .inr ⟨k, token, hk, rfl, ⟨htoken, hfile⟩, fun _ => hk⟩

/-- The rest of a read of a grant that was found. -/
theorem readGrant {k : Nat} (h : FoundGrant K audience name workspaceId k token w) :
    Amid acts (Whole grants) (Does i) rely (effect (.readFile k))
      (fun r w => r = .ok (token ++ "\n") ∧ FoundGrant K audience name workspaceId k token w) w := by
  refine amid_last (T := fun a w => a = token ++ "\n" ∧ FoundGrant K audience name workspaceId k token w)
    (H.stable_foundGrant k) h (fun a => ?_) (fun a w h => ⟨by rw [h.1], h.2⟩) ?_
  · exact Stable.and (fun _ _ h _ => h) (H.stable_foundGrant k)
  · intro w₁ a w₂ h hI hact
    obtain ⟨-, ⟨choice, hp⟩, -⟩ := H.acts _ _ _ _ hact
    obtain ⟨rfl, rfl⟩ := readFile_text hp h.1.2
    exact ⟨hI, .refl i _, rfl, h⟩

/-- A read of a grant. -/
theorem readGrantFile (hgrants : grants) (hid : validWorkspaceId workspaceId = true) :
    Amid acts (Whole grants) (Does i) rely (readFile (.grants audience) (grantFile name workspaceId))
      (fun r w => ∀ text, r = .ok text → ∃ k token, text = token ++ "\n" ∧
        FoundGrant K audience name workspaceId k token w) w := by
  refine amid_effect stable_true trivial fun w₁ a w₂ _ hI hact => ?_
  obtain ⟨rfl, hK, ⟨rfl, hnone⟩ | ⟨k, token, rfl, hk, hfound⟩⟩ := H.openGrant hgrants hI hid hact
  · exact ⟨hI, .refl i _, amid_throw stable_true trivial fun _ _ => nofun⟩
  · refine ⟨hI, .refl i _, (H.readGrant hfound).mono fun r w h text hr => ?_⟩
    cases hr
    exact ⟨k, token, Except.ok.inj h.1, h.2⟩

/-- The random part of a token is drawn once. -/
theorem draw (hw : Whole grants w) (hname : validLifecycleName name = true)
    (hid : validWorkspaceId workspaceId = true) {random : String}
    (h : acts (.randomBytes audience name workspaceId) w random w') :
    Whole grants w' ∧ Does i w w' ∧ Drawn w' audience name workspaceId random ∧ validWorkspaceId random = true := by
  obtain ⟨-, ⟨choice, hp⟩, -⟩ := H.acts _ _ _ _ h
  simp only [perform] at hp
  split at hp
  · rename_i hfresh
    simp only [Option.some.injEq, Prod.mk.injEq] at hp
    obtain ⟨rfl, rfl⟩ := hp
    refine ⟨{ hw with records := ?_, drawnOne := ?_, drawnValid := ?_, granted := ?_ },
      { Does.refl i w with drawn := fun _ h => List.mem_cons_of_mem _ h }, ⟨List.mem_cons_self, hname, hid⟩, hfresh.1⟩
    · exact fun kind n k hk hfile => (hw.records kind n k hk hfile).imp id
        (.imp fun _ hr => hr.later rfl fun _ h => h)
    · intro random p p' h₁ h₂
      rcases List.mem_cons.mp h₁ with heq₁ | hold₁ <;> rcases List.mem_cons.mp h₂ with heq₂ | hold₂
      · exact (Prod.mk.inj heq₁).2.trans (Prod.mk.inj heq₂).2.symm
      · exact absurd (Prod.mk.inj heq₁).1 (hfresh.2 _ hold₂)
      · exact absurd (Prod.mk.inj heq₂).1 (hfresh.2 _ hold₁)
      · exact hw.drawnOne _ _ _ hold₁ hold₂
    · intro random p hp
      rcases List.mem_cons.mp hp with heq | hold
      · rw [(Prod.mk.inj heq).1]
        exact hfresh.1
      · exact hw.drawnValid _ _ hold
    · exact fun hgrants audience n k hk => (hw.granted hgrants audience n k hk).imp id fun hr =>
        hr.later rfl fun _ h => List.mem_cons_of_mem _ h
  · cases hp

/-! ## Ensuring a grant -/

/-- What an `ensure` promises of its token. -/
def Ensured (K : World → World → Prop) (audience : GrantAudience) (record : WorkspaceRecord) (r : Except Failure String)
    (w : World) : Prop :=
  ∀ token, r = .ok token → TokenOf w audience record.name record.workspaceId token ∧
    (KeepsGrant K audience record.name record.workspaceId → Granted audience record.name record.workspaceId token w)

omit [Format] in
omit H in
theorem ensured_of_found {record : WorkspaceRecord} {k : Nat}
    (h : FoundGrant K audience record.name record.workspaceId k token w) :
    Ensured K audience record (.ok (trim (token ++ "\n"))) w := by
  rintro token' htoken
  cases htoken
  rw [h.1.1.trim]
  exact ⟨h.1.1, fun hkeeps => ⟨k, h.2 hkeeps, h.1.2⟩⟩

theorem trimmed {record : WorkspaceRecord} {k : Nat}
    (h : FoundGrant K audience record.name record.workspaceId k token w) :
    Amid acts (Whole grants) (Does i) rely (effect (.readFile k) >>= fun text => pure (trim text))
      (Ensured K audience record) w := by
  refine (H.readGrant h).andThen (fun text w h => ?_) fun failure w h => ?_
  · obtain rfl := Except.ok.inj h.1
    exact amid_pure (H.stable_foundGrant k) h.2 fun w h => ensured_of_found h
  · cases h.1

/-- A grant is made, or found after all. -/
theorem createGrant (hgrants : grants) (record : WorkspaceRecord)
    (audience : GrantAudience) (hdrawn : Drawn w audience record.name record.workspaceId random)
    (hrandom : validWorkspaceId random = true) :
    Amid acts (Whole grants) (Does i) rely
      (createGrant audience (grantFile record.name record.workspaceId) (grantToken record.name record.workspaceId random))
      (Ensured K audience record) w := by
  refine amid_effect (H.stable_drawn _ _ _ _) hdrawn fun w₁ a w₂ hdrawn hI hact => ?_
  obtain ⟨hI', hdoes, rfl | ⟨k, rfl, ⟨hwriting, hlinked⟩, hk⟩⟩ := H.create hI (fun _ hd => by cases hd) hact
  · refine ⟨hI', hdoes, ?_⟩
    refine Amid.andThen (P := fun r w => ∀ text, r = .ok text → ∃ k token, text = token ++ "\n" ∧
      FoundGrant K audience record.name record.workspaceId k token w) (fun text w h => ?_) (fun _ _ _ => nofun)
      (H.readGrantFile hgrants record.identified)
    obtain ⟨k, token, rfl, hfound⟩ := h text rfl
    exact amid_pure (H.stable_foundGrant k) hfound fun w h => ensured_of_found h
  · refine ⟨hI', hdoes, ?_⟩
    have hstable : ∀ s, Stable rely fun w => Writing i k s w ∧
        Linked (.grants audience) (grantFile record.name record.workspaceId) k w ∧
        Drawn w audience record.name record.workspaceId random ∧
        (KeepsGrant K audience record.name record.workspaceId →
          w.lookup (.grants audience) (grantFile record.name record.workspaceId) = some k) := by
      intro s w w' h hr
      have hlinked := H.stable_linked (.grants audience) _ k s (fun _ hd => by cases hd) w w' ⟨h.1, h.2.1⟩ hr
      exact ⟨hlinked.1, hlinked.2, H.stable_drawn _ _ _ _ w w' h.2.2.1 hr, H.stable_granted k w w' h.2.2.2 hr⟩
    generalize htext : (grantToken record.name record.workspaceId random ++ "\n").toList = text
    have hwrite := H.writeText hstable (fun w c h => ⟨h.1, ⟨h.2.1.drawn, h.2.1.named, h.2.1.identified⟩, h.2.2⟩)
      text [] w₂ ⟨hwriting, hlinked, hdrawn.later hdoes.drawn, fun _ => hk⟩
    refine hwrite.andThen ?_ fun failure w h => nomatch h.1
    rintro - w₃ ⟨-, hwritten⟩
    rw [List.nil_append, ← htext, String.ofList_toList] at hwritten
    refine amid_effect (hstable _) hwritten fun w₄ a w₅ h hI hact => ?_
    obtain ⟨hI', hdoes, rfl, hclosed⟩ := H.close hI h.1 h.2.1 (fun _ hd => by cases hd)
      (fun audience' hd => by cases hd; exact ⟨_, _, random, rfl, h.2.2.1, h.1.2⟩) hact
    have hfound : FoundGrant K audience record.name record.workspaceId k (grantToken record.name record.workspaceId random)
        (w₄.close i k) :=
      ⟨⟨⟨random, h.2.2.1.later hdoes.drawn, hrandom, rfl⟩, hclosed⟩, h.2.2.2⟩
    refine ⟨hI', hdoes, amid_pure (H.stable_foundGrant k) hfound fun w h => ?_⟩
    have hensured := ensured_of_found h
    rwa [h.1.1.trim] at hensured

/-- A grant is found, or made with a token of its own. -/
theorem ensureGrant (hgrants : grants) (record : WorkspaceRecord)
    (audience : GrantAudience) :
    Amid acts (Whole grants) (Does i) rely (ensureGrant record audience) (Ensured K audience record) w := by
  refine amid_effect stable_true trivial fun w₁ a w₂ _ hI hact => ?_
  obtain ⟨rfl, hK, ⟨rfl, hnone⟩ | ⟨k, token, rfl, hk, hfound⟩⟩ := H.openGrant hgrants hI record.identified hact
  · refine ⟨hI, .refl i _, amid_effect stable_true trivial fun w₃ random w₄ _ hI hact => ?_⟩
    obtain ⟨hI', hdoes, hdrawn, hrandom⟩ := H.draw hI record.named record.identified hact
    exact ⟨hI', hdoes, H.createGrant hgrants record audience hdrawn hrandom⟩
  · exact ⟨hI, .refl i _, H.trimmed hfound⟩

theorem stable_ensured (record : WorkspaceRecord) (token : String) :
    Stable rely fun w => Ensured K audience record (.ok token) w := by
  refine H.stable fun w w' j _ hw hd hK h token' htoken => ⟨(h token' htoken).1.later hd.drawn, fun hkeeps => ?_⟩
  obtain ⟨k, hk, hclosed⟩ := (h token' htoken).2 hkeeps
  exact ⟨k, hkeeps w w' k hK hk, hclosed.does hd⟩

/-- The grant of a workspace by its name. -/
theorem ensureNamedGrant (hgrants : grants) (audience : GrantAudience) (name : String) :
    Amid acts (Whole grants) (Does i) rely (ensureNamedGrant audience name)
      (fun r w => ∀ granted, r = .ok granted → granted.1.name = name ∧
        Ensured K audience granted.1 (.ok granted.2) w) w := by
  refine (H.readWorkspace name).andThen (fun record w h => ?_) (fun _ _ _ => nofun)
  have hname := (readWorkspace_ok h).1
  refine (H.ensureGrant hgrants record audience).andThen (fun token w h => ?_) (fun _ _ _ => nofun)
  refine amid_pure (H.stable_ensured record token) h fun w h granted hgranted => ?_
  cases hgranted
  exact ⟨hname, h⟩

/-! ## Authentication -/

end Among

/-- The workspace has this instance, which is not discarded. -/
def Active (name workspaceId : String) (w : World) : Prop :=
  ∃ record : WorkspaceRecord, @Current _ .workspace record w ∧ record.name = name ∧ record.workspaceId = workspaceId ∧
    record.phase ≠ .discarding

omit [Format] in
/-- The grant has a file. -/
def HasGrant (audience : GrantAudience) (name workspaceId : String) (w : World) : Prop :=
  w.lookup (.grants audience) (grantFile name workspaceId) ≠ none

/-- What an authentication promises: whom it lets in, and that it lets in who has a grant of an active instance. -/
structure Authenticates (K : World → World → Prop) (audience : GrantAudience) (token : String)
    (r : Except Failure (Option WorkspaceRecord)) (w : World) : Prop where
  sound : ∀ record, r = .ok (some record) → record.phase ≠ .discarding ∧
    TokenOf w audience record.name record.workspaceId token ∧ Passed K (@Current _ .workspace record) ∧
    Passed K (HasGrant audience record.name record.workspaceId)
  complete : ∀ name workspaceId, Passes K (Granted audience name workspaceId token) → Passes K (Active name workspaceId) →
    ∃ record, r = .ok (some record) ∧ record.name = name ∧ record.workspaceId = workspaceId

/-- The same of the checks that follow once the parts of the token have been read. -/
structure Checks (K : World → World → Prop) (audience : GrantAudience) (token name workspaceId : String)
    (r : Except Failure (Option WorkspaceRecord)) (w : World) : Prop where
  sound : ∀ record, r = .ok (some record) → record.name = name ∧ record.workspaceId = workspaceId ∧
    record.phase ≠ .discarding ∧ TokenOf w audience name workspaceId token ∧ Passed K (@Current _ .workspace record) ∧
    Passed K (HasGrant audience name workspaceId)
  complete : Passes K (Granted audience name workspaceId token) → Passes K (Active name workspaceId) →
    ∃ record, r = .ok (some record)

namespace Among

variable (H : Among lists grants K i op acts rely)
include H

theorem stable_authenticates (token : String) (found : Option WorkspaceRecord) :
    Stable rely fun w => Authenticates K audience token (.ok found) w := by
  refine H.stable fun w w' j _ _ hd _ h => ⟨fun record hr => ?_, h.complete⟩
  obtain ⟨hphase, htoken, hpassed⟩ := h.sound record hr
  exact ⟨hphase, htoken.later hd.drawn, hpassed⟩

omit H in
/-- A read of the record of an active instance. -/
theorem active_of_read {record : WorkspaceRecord} (hactive : Passes K (Active name workspaceId))
    (hread : Passed K (@Current _ .workspace record)) (hname : record.name = name) :
    record.workspaceId = workspaceId ∧ record.phase ≠ .discarding := by
  obtain ⟨w, ⟨record', hcurrent', hname', hid, hphase⟩, hcurrent⟩ := hactive.passed hread
  obtain rfl : record = record' := Current.unique hcurrent hcurrent' (hname.trans hname'.symm)
  exact ⟨hid, hphase⟩

/-- The last check, of the record. -/
theorem checkRecord (hname : validLifecycleName name = true)
    (htoken : TokenOf w audience name workspaceId token) (hgrant : Passed K (HasGrant audience name workspaceId)) :
    Amid acts (Whole grants) (Does i) rely (do
      let record ← Lifecycle.readWorkspace name
      pure (if record.workspaceId = workspaceId ∧ record.phase ≠ .discarding then some record else none))
      (Checks K audience token name workspaceId) w := by
  have hread := (H.readWorkspace (w := w) name).frame H.stable_tokenOf (fun _ _ h hd => TokenOf.later h hd.drawn) htoken
  refine hread.andThen (fun record w h => ?_) fun failure w h => ⟨nofun, fun _ hactive => ?_⟩
  · obtain ⟨hrecord, -, hpassed⟩ := readWorkspace_ok h.1
    refine amid_pure H.stable_tokenOf h.2 fun w htoken => ⟨fun record' hok => ?_, fun _ hactive => ?_⟩
    · have hok := Except.ok.inj hok
      split at hok
      · rename_i hcheck
        obtain rfl := Option.some.inj hok
        exact ⟨hrecord, hcheck.1, hcheck.2, htoken, hpassed, hgrant⟩
      · cases hok
    · exact ⟨record, by rw [if_pos (active_of_read hactive hpassed hrecord)]⟩
  · obtain ⟨-, habsent⟩ := (h.1.1 hname).2 failure rfl
    obtain ⟨w', ⟨record, ⟨k, hk, -⟩, rfl, -⟩, hnone⟩ := hactive.passed habsent
    have hpresent : @Present .workspace record.name w' := by
      show w'.lookup _ _ ≠ none
      rw [show recordFile record.name = recordFile (@Record.name .workspace record) from rfl, hk]
      exact Option.some_ne_none k
    exact absurd hpresent hnone

/-- The checks that follow once the parts of the token have been read. -/
theorem checkGrant (hgrants : grants) (hname : validLifecycleName name = true)
    (hid : validWorkspaceId workspaceId = true) :
    Amid acts (Whole grants) (Does i) rely (do
      let text ← readFile (.grants audience) (grantFile name workspaceId)
      if token ≠ trim text then pure none
      else
        let record ← Lifecycle.readWorkspace name
        pure (if record.workspaceId = workspaceId ∧ record.phase ≠ .discarding then some record else none))
      (Checks K audience token name workspaceId) w := by
  refine amid_effect stable_true trivial fun w₁ a w₂ _ hI hact => ?_
  obtain ⟨rfl, hK, ⟨rfl, hnone⟩ | ⟨k, found, rfl, hk, hfound⟩⟩ := H.openGrant hgrants hI hid hact
  · refine ⟨hI, .refl i _, amid_throw stable_true trivial fun _ _ => ⟨nofun, fun hgranted => ?_⟩⟩
    obtain ⟨k, hk, -⟩ := hgranted _ _ hK
    rw [hnone] at hk
    cases hk
  have hpassed : Passed K (HasGrant audience name workspaceId) := by
    refine ⟨_, _, hK, fun hnone => ?_⟩
    rw [hk] at hnone
    cases hnone
  have hsame : Passes K (Granted audience name workspaceId token) → token = found := by
    intro hgranted
    obtain ⟨k', hk', hclosed⟩ := hgranted _ _ hK
    rw [hk, Option.some.injEq] at hk'
    subst hk'
    exact append_newline_injective (Option.some.inj (hclosed.1.symm.trans hfound.1.2.1))
  refine ⟨hI, .refl i _, (H.readGrant hfound).andThen (fun text w h => ?_) fun failure w h => nomatch h.1⟩
  obtain rfl := Except.ok.inj h.1
  rw [h.2.1.1.trim]
  split
  · rename_i hne
    exact amid_pure stable_true trivial fun _ _ => ⟨nofun, fun hgranted => absurd (hsame hgranted) hne⟩
  · rename_i heq
    obtain rfl : token = found := not_not.mp heq
    exact H.checkRecord hname h.2.1.1 hpassed

omit H in
/-- A grant of an active instance has the parts of its token. -/
theorem parts_of_granted (hI : Whole grants w) (hgrants : grants) {encodedName id rest : List Char}
    (hparts : token.toList.splitOn '.' = [encodedName, id, rest]) (hgranted : Granted audience name workspaceId token w)
    (hactive : Active name workspaceId w) : validLifecycleName name = true ∧ validWorkspaceId workspaceId = true ∧
      decodeName encodedName = name ∧ String.ofList id = workspaceId := by
  obtain ⟨record, -, rfl, rfl, -⟩ := hactive
  obtain ⟨k, hk, hclosed⟩ := hgranted
  obtain ⟨stored, htoken, hstored⟩ := hI.tokenOf hgrants record.identified hk hclosed.2
  obtain rfl : token = stored := append_newline_injective (Option.some.inj (hclosed.1.symm.trans hstored.1))
  obtain ⟨random, hdrawn, hrandom, rfl⟩ := htoken
  rw [splitOn_grantToken hdrawn.identified hrandom] at hparts
  injection hparts with hname hparts
  injection hparts with hid _
  refine ⟨record.named, record.identified, ?_, ?_⟩
  · rw [← hname, decodeName_encodeName record.named]
  · rw [← hid, String.ofList_toList]

/-- A token with three parts. -/
theorem authenticateParts (hgrants : grants) (hw : ∃ w₀, K w₀ w)
    (hI : Whole grants w) {encodedName id rest : List Char} (hparts : token.toList.splitOn '.' = [encodedName, id, rest]) :
    Amid acts (Whole grants) (Does i) rely
      (tryCatch (authenticateParts token audience encodedName id) fun _ => pure none)
      (fun r w => (∃ x, r = .ok x) ∧ Authenticates K audience token r w) w := by
  obtain ⟨w₀, hK⟩ := hw
  have hnames : ∀ name workspaceId, Passes K (Granted audience name workspaceId token) → Passes K (Active name workspaceId) →
      validLifecycleName name = true ∧ validWorkspaceId workspaceId = true ∧ decodeName encodedName = name ∧
        String.ofList id = workspaceId := fun name workspaceId hgranted hactive =>
    parts_of_granted hI hgrants hparts (hgranted _ _ hK) (hactive _ _ hK)
  rw [Lifecycle.authenticateParts]
  generalize hname : decodeName encodedName = name at hnames
  generalize hid : String.ofList id = workspaceId at hnames
  by_cases hvalid : validLifecycleName name = true ∧ validWorkspaceId workspaceId = true
  · rw [validateLifecycleName, if_pos hvalid.1, Program.pure_andThen]
    simp only [validateWorkspaceId, if_pos hvalid.2, Program.pure_andThen]
    refine Amid.orElse (P := Checks K audience token name workspaceId) ?_ ?_ (H.checkGrant hgrants hvalid.1 hvalid.2)
    · refine fun found w h => ⟨⟨found, rfl⟩, ⟨fun record hr => ?_, fun name' workspaceId' hgranted hactive => ?_⟩⟩
      · obtain ⟨rfl, rfl, hphase, htoken, hcurrent, hgrant⟩ := h.sound record hr
        exact ⟨hphase, htoken, hcurrent, hgrant⟩
      · obtain ⟨-, -, rfl, rfl⟩ := hnames name' workspaceId' hgranted hactive
        obtain ⟨record, hr⟩ := h.complete hgranted hactive
        obtain ⟨hname', hid', -⟩ := h.sound record hr
        exact ⟨record, hr, hname', hid'⟩
    · refine fun failure w h => amid_pure stable_true trivial fun w _ => ⟨⟨none, rfl⟩, by simp, ?_⟩
      intro name' workspaceId' hgranted hactive
      obtain ⟨-, -, rfl, rfl⟩ := hnames name' workspaceId' hgranted hactive
      obtain ⟨record, hr⟩ := h.complete hgranted hactive
      cases hr
  · have hrefused : ∀ w, Authenticates K audience token (.ok none) w := by
      refine fun w => ⟨by simp, fun name' workspaceId' hgranted hactive => ?_⟩
      obtain ⟨hname', hid', rfl, rfl⟩ := hnames name' workspaceId' hgranted hactive
      exact absurd ⟨hname', hid'⟩ hvalid
    by_cases hlifecycle : validLifecycleName name = true
    · have hinstance : validWorkspaceId workspaceId ≠ true := fun h => hvalid ⟨hlifecycle, h⟩
      rw [validateLifecycleName, if_pos hlifecycle, Program.pure_andThen]
      simp only [validateWorkspaceId, if_neg hinstance]
      exact amid_pure stable_true trivial fun w _ => ⟨⟨none, rfl⟩, hrefused w⟩
    · rw [validateLifecycleName, if_neg hlifecycle]
      exact amid_pure stable_true trivial fun w _ => ⟨⟨none, rfl⟩, hrefused w⟩

/-- An authentication. -/
theorem authenticateGrant (hgrants : grants) (hw : ∃ w₀, K w₀ w)
    (hI : Whole grants w) (audience : GrantAudience) (token : String) :
    Amid acts (Whole grants) (Does i) rely (authenticateGrant token audience)
      (fun r w => (∃ x, r = .ok x) ∧ Authenticates K audience token r w) w := by
  rw [Lifecycle.authenticateGrant]
  split
  · rename_i encodedName id rest hparts
    exact H.authenticateParts hgrants hw hI hparts
  · rename_i hparts
    refine amid_pure stable_true trivial fun w' _ => ⟨⟨none, rfl⟩, nofun, fun name workspaceId hgranted hactive => ?_⟩
    obtain ⟨w₀, hK⟩ := hw
    obtain ⟨record, -, rfl, rfl, -⟩ := hactive _ _ hK
    obtain ⟨k, hk, hclosed⟩ := hgranted _ _ hK
    obtain ⟨stored, htoken, hstored⟩ := hI.tokenOf hgrants record.identified hk hclosed.2
    obtain rfl : token = stored := append_newline_injective (Option.some.inj (hclosed.1.symm.trans hstored.1))
    obtain ⟨random, hdrawn, hrandom, rfl⟩ := htoken
    exact absurd (splitOn_grantToken hdrawn.identified hrandom) (hparts _ _ _)

end Among

end Dim.Lifecycle
