import KudiCore.Identity.Tokens

/-!
# Revoked families

| here | there |
| --- | --- |
| `.revoked family ∈ journal` | a `revokeFamily`, or its owner's `revokeAllForUser`, has been committed |
| `IssuesUnrevoked` | what `RefreshAccessTokenHandler` would have to look at again before it issues |

A revocation updates the rows that there are. A refresh that has loaded its token before and issues the successor
afterwards adds a live one.
-/

namespace Kudi.Identity

open Interleave Protocol

/-- The family has been revoked since program `i` was presented with a token of it. -/
def RevokedSince (s : Store) (i : PId) (family : String) : Prop :=
  List.Sublist [.presented i family, .revoked family] s.journal

instance (s : Store) (i : PId) (family : String) : Decidable (RevokedSince s i family) :=
  inferInstanceAs (Decidable (List.Sublist _ _))

/-- `data`, if it is live, is of no family that has been revoked since the program looked. -/
def StillUnrevoked (s : Store) (i : PId) (data : RefreshToken) : Prop :=
  data.revokedAt = none → ¬ RevokedSince s i data.family

instance (s : Store) (i : PId) (data : RefreshToken) : Decidable (StillUnrevoked s i data) :=
  inferInstanceAs (Decidable (_ → _))

/-- No refresh issues a token once its family has been revoked behind its back. -/
def IssuesUnrevoked (s : Store) (i : PId) (a : Ans) (op : Op) : Prop :=
  Fresh s a ∧ ∀ data ∈ op.savedToken?, StillUnrevoked s i data

instance (services : Services) (s : Store) (i : PId) (a : Ans) (op : Op) :
    Decidable ((scheduleOf services IssuesUnrevoked).allow s i a op) :=
  inferInstanceAs (Decidable (Fresh s a ∧ ∀ data ∈ op.savedToken?, StillUnrevoked s i data))

/-- No token of a revoked family is active. -/
def Dead (s : Store) : Prop :=
  ∀ family, .revoked family ∈ s.journal → ∀ t ∈ s.refreshTokens.rows, t.family = family →
    ∀ now, t.isActive now = false

/-! ## The invariant -/

structure RevocationInv (s : Store) (sts : PId → Rotating) : Prop where
  tokens : TokensInv s sts
  revoked : ∀ family, .revoked family ∈ s.journal → ∀ t ∈ s.refreshTokens.rows, t.family = family →
    t.revokedAt ≠ none
  named : ∀ family, .revoked family ∈ s.journal → family ∈ s.drawn
  unused : ∀ i, ∀ u ∈ (sts i).drawn, .revoked u ∉ s.journal
  seen : ∀ i t, (sts i).found = some t → .presented i t.family ∈ s.journal
  since : ∀ i t, (sts i).found = some t → t.revokedAt = none → .revoked t.family ∈ s.journal →
    RevokedSince s i t.family

theorem RevocationInv.init {s : Store} (h : Named s) (hjournal : s.journal = []) : RevocationInv s fun _ => .init := by
  have hno : ∀ {family}, .revoked family ∉ s.journal := by
    intro family hf
    rw [hjournal] at hf
    exact List.not_mem_nil hf
  exact ⟨.init h, fun _ hf => absurd hf hno, fun _ hf => absurd hf hno, fun _ _ _ => hno, fun _ _ => nofun,
    fun _ _ => nofun⟩

/-- It has been so ever since. -/
theorem RevokedSince.append {s s' : Store} {i : PId} {family : String} (h : RevokedSince s i family)
    {steps : List TokenStep} (hj : s'.journal = s.journal ++ steps) : RevokedSince s' i family := by
  unfold RevokedSince
  rw [hj]
  exact h.trans (List.sublist_append_left _ _)

/-! ## One step -/

namespace RevocationInv

variable {i : PId} {s : Store} {sts : PId → Rotating}

theorem save (h : RevocationInv s sts) {data : RefreshToken} {st' : Rotating}
    (hinv : TokensInv { s with refreshTokens := s.refreshTokens.put data } (Function.update sts i st'))
    (hfound : st'.found = (sts i).found) (hdrawn : st'.drawn ⊆ (sts i).drawn)
    (hdead : .revoked data.family ∈ s.journal → data.revokedAt ≠ none) :
    RevocationInv { s with refreshTokens := s.refreshTokens.put data } (Function.update sts i st') := by
  have hold : ∀ {j t}, (Function.update sts i st' j).found = some t → (sts j).found = some t := by
    intro j t ht
    rcases update_or sts i j st' with ⟨rfl, he⟩ | ⟨-, he⟩
    · rwa [he, hfound] at ht
    · rwa [he] at ht
  refine ⟨hinv, fun family hf t ht htf => ?_, h.named, fun j u hu => ?_, fun j t ht => h.seen j t (hold ht),
    fun j t ht => h.since j t (hold ht)⟩
  · rcases (Table.mem_put _ _ _).1 ht with rfl | ⟨ht, -⟩
    · exact hdead (htf ▸ hf)
    · exact h.revoked family hf t ht htf
  · rcases update_or sts i j st' with ⟨rfl, he⟩ | ⟨-, he⟩
    · rw [he] at hu
      exact h.unused j u (hdrawn hu)
    · rw [he] at hu
      exact h.unused j u hu

/-- **Every move leaves revoked families dead**, if no refresh issues a token of a family revoked behind its back. -/
theorem step (h : RevocationInv s sts) {s' : Store} {st' : Rotating}
    (hm : Moves (StillUnrevoked s i) i s (sts i) s' st') :
    RevocationInv s' (Function.update sts i st') := by
  have hinv := h.tokens.step hm
  cases hm with
  | stays hs =>
    rw [Function.update_eq_self] at hinv ⊢
    have hjournal : s'.journal = s.journal ++ [] := by rw [hs.journal, List.append_nil]
    refine ⟨hinv, ?_, fun family hf => hs.drawn (h.named family (hs.journal ▸ hf)), ?_, ?_, fun j t ht hl hf =>
      (h.since j t ht hl (hs.journal ▸ hf)).append hjournal⟩
    · rw [hs.journal, hs.refreshTokens]
      exact h.revoked
    · rw [hs.journal]
      exact h.unused
    · rw [hs.journal]
      exact h.seen
  | loads hst found hmem =>
    have hrevoked : ∀ {family}, .revoked family ∈ s.journal ++ presented i found →
      .revoked family ∈ s.journal := by
      intro family hf
      refine (List.mem_append.1 hf).resolve_right fun hf => ?_
      cases found with
      | none => exact absurd hf List.not_mem_nil
      | some t => cases List.mem_singleton.1 hf
    refine ⟨hinv, fun family hf => h.revoked family (hrevoked hf), fun family hf => h.named family (hrevoked hf),
      fun j u hu hf => ?_, fun j t ht => ?_, fun j t ht hl hf => ?_⟩
    · rcases update_or sts i j { sts i with found := found } with ⟨rfl, he⟩ | ⟨-, he⟩ <;> rw [he] at hu <;>
        exact h.unused j u hu (hrevoked hf)
    · rcases update_or sts i j { sts i with found := found } with ⟨rfl, he⟩ | ⟨-, he⟩
      · rw [he] at ht
        obtain rfl : found = some t := ht
        exact List.mem_append_right _ (List.mem_singleton_self _)
      · rw [he] at ht
        exact List.mem_append_left _ (h.seen j t ht)
    · rcases update_or sts i j { sts i with found := found } with ⟨rfl, he⟩ | ⟨-, he⟩
      · rw [he] at ht
        exact absurd hl (h.revoked _ (hrevoked hf) t (hmem t ht) rfl)
      · rw [he] at ht
        exact (h.since j t ht hl (hrevoked hf)).append rfl
  | draws hst u hu =>
    refine ⟨hinv, h.revoked, fun family hf => List.mem_cons_of_mem _ (h.named family hf), fun j v hv hf => ?_,
      fun j t ht => ?_, fun j t ht => ?_⟩
    · rcases update_or sts i j { sts i with drawn := u :: (sts i).drawn } with ⟨rfl, he⟩ | ⟨-, he⟩
      · rw [he] at hv
        rcases List.mem_cons.1 hv with rfl | hv
        · exact hu (h.named _ hf)
        · exact h.unused j v hv hf
      · rw [he] at hv
        exact h.unused j v hv hf
    · rcases update_or sts i j { sts i with drawn := u :: (sts i).drawn } with ⟨rfl, he⟩ | ⟨-, he⟩ <;>
        rw [he] at ht <;>
        exact h.seen j t ht
    · rcases update_or sts i j { sts i with drawn := u :: (sts i).drawn } with ⟨rfl, he⟩ | ⟨-, he⟩ <;>
        rw [he] at ht <;>
        exact h.since j t ht
  | @replaces t data hr hA hunique =>
    refine h.save hinv rfl (List.Subset.refl _) fun _ => ?_
    obtain ⟨now, newId, -, -, rfl⟩ := hr.saved
    exact Option.some_ne_none now
  | @issues data hi hA hunique =>
    refine h.save hinv rfl (List.nil_subset _) fun hf => ?_
    rcases hi.family with ⟨t, ht, htl, htf, -⟩ | ⟨-, -, hfam⟩
    · exact absurd (htf ▸ h.since i t ht htl (htf ▸ hf)) (hA hi.live)
    · exact absurd hf (h.unused i _ hfam)
  | revokes filter revokedAt hcovers =>
    rw [Function.update_eq_self] at hinv ⊢
    have hsame := filter.revokes_same revokedAt
    -- The families covered are families of stored tokens.
    have hstored : ∀ {family}, family ∈ s.families filter →
      ∃ t ∈ s.refreshTokens.rows, t.family = family := by
      intro family hf
      cases filter with
      | ofFamily family' =>
        obtain rfl := List.mem_singleton.1 hf
        obtain ⟨t, ht, rfl⟩ := hcovers _ rfl
        obtain ⟨cur, hcur, hcf, -⟩ := h.tokens.found i t ht
        exact ⟨cur, Table.mem_of_find? hcur, hcf⟩
      | ofUserId userId =>
        obtain ⟨t, ht, rfl⟩ := List.mem_map.1 hf
        exact ⟨t, (List.mem_filter.1 ht).1, rfl⟩
    have hcase : ∀ {family}, .revoked family ∈ (s.revokeMany filter revokedAt).journal →
        .revoked family ∈ s.journal ∨ family ∈ s.families filter := by
      intro family hf
      rcases List.mem_append.1 hf with hf | hf
      · exact .inl hf
      · obtain ⟨family', hf', he⟩ := List.mem_map.1 hf
        cases he
        exact .inr hf'
    refine ⟨hinv, fun family hf t ht htf => ?_, fun family hf => ?_, fun j u hu hf => ?_,
      fun j t ht => List.mem_append_left _ (h.seen j t ht), fun j t ht hl hf => ?_⟩
    · obtain ⟨r, hr, rfl⟩ := TokensInv.mem_revokeMany ht
      rw [(hsame r).1] at htf
      rcases hcase hf with hf | hf
      · have hrevoked := h.revoked family hf r hr htf
        unfold TokenFilter.revokes
        split
        · exact Option.some_ne_none revokedAt
        · exact hrevoked
      · have hcov : filter.covers r = true := by
          cases filter with
          | ofFamily family' =>
            obtain rfl := List.mem_singleton.1 hf
            simpa [TokenFilter.covers] using htf
          | ofUserId userId =>
            obtain ⟨t, ht, rfl⟩ := List.mem_map.1 hf
            obtain ⟨ht, hu⟩ := List.mem_filter.1 ht
            have howner := h.tokens.named.owner r hr t ht htf
            simpa [TokenFilter.covers, howner] using hu
        unfold TokenFilter.revokes
        rw [hcov, Bool.true_and]
        split
        · exact Option.some_ne_none revokedAt
        · rename_i hn
          simpa [RefreshToken.isRevoked] using hn
    · rcases hcase hf with hf | hf
      · exact h.named family hf
      · obtain ⟨t, ht, rfl⟩ := hstored hf
        exact (h.tokens.named.drawn t ht).2
    · rcases hcase hf with hf | hf
      · exact h.unused j u hu hf
      · obtain ⟨t, ht, htf⟩ := hstored hf
        exact ((h.tokens.own j u hu).2 t ht).2 htf
    · rcases hcase hf with hf | hf
      · exact (h.since j t ht hl hf).append rfl
      · have hpresented : List.Sublist [.presented j t.family] s.journal :=
          List.singleton_sublist.2 (h.seen j t ht)
        have hrevoked : List.Sublist [TokenStep.revoked t.family] ((s.families filter).map .revoked) :=
          List.singleton_sublist.2 (List.mem_map_of_mem hf)
        exact hpresented.append hrevoked

end RevocationInv

theorem revocation_preserves (services : Services) :
    tokenProtocol.Preserves (scheduleOf services IssuesUnrevoked) RevocationInv where
  call {s sts i a op r s'} h hok ha hx := by
    obtain ⟨hy, hm⟩ := moves_of_exec (A := StillUnrevoked s i) hok ha.1 (fun data hop => ha.2 data (hop ▸ rfl)) hx
    exact ⟨hy, h.step hm⟩
  act ms h :=
    have hnamed : Named (tick ms _) := ⟨h.tokens.named.drawn, h.tokens.named.owner⟩
    ⟨⟨hnamed, h.tokens.own, h.tokens.apart, h.tokens.found⟩, h.revoked, h.named, h.unused, h.seen, h.since⟩

/-! ## Every run -/

/-- **A revoked family is dead**, in every state of every run in which no refresh issues a token of a family that has
been revoked since the refresh was presented with one of it: whatever else interleaves, and whatever fails. -/
theorem revoked_families_dead (services : Services) (requests : PId → SessionRequest) {start : Store}
    (hnamed : Named start) (hjournal : start.journal = []) {c : Config Op.Res Err Store Err (Option AuthResponseDto)}
    (hr : (scheduleOf services IssuesUnrevoked).Reach ⟨start, fun i => (requests i).program services⟩ c) :
    Dead c.store := by
  have htracks : tokenProtocol.Tracks RevocationInv (fun i st x => Promises services (requests i) st x)
      (⟨start, fun i => (requests i).program services⟩ : Config Op.Res Err Store Err (Option AuthResponseDto))
      fun _ => .init := ⟨.init hnamed hjournal, fun i => (requests i).obeys⟩
  obtain ⟨sts, hinv, -⟩ := reach (revocation_preserves services) htracks hr
  intro family hf t ht htf now
  have hrevoked := Option.isSome_iff_ne_none.2 (RevocationInv.revoked hinv family hf t ht htf)
  simp only [RefreshToken.isActive, RefreshToken.isRevoked, hrevoked, Bool.not_true, Bool.and_false]

/-! ## A refresh in flight -/

/-- Program 0 refreshes the session, program 1 ends it, program 2 changes the password. -/
def sampleExit : PId → SessionRequest
  | 0 => .refresh ⟨"raw-0", none, none⟩
  | 1 => .logout ⟨"raw-0"⟩
  | _ => .changePassword ⟨"user", "correct horse", "battery staple"⟩

/-- Refreshed, then logged out. -/
theorem revoked_families_dead_sample : ∃ c,
    (scheduleOf sampleServices IssuesUnrevoked).Reach
      ⟨sampleStore, fun i => (sampleExit i).program sampleServices⟩ c ∧
    c.Ended 0 (.ok (some (sampleSession "raw-1"))) ∧ c.store.refreshTokens.rows.length = 2 ∧
    .revoked "family" ∈ c.store.journal ∧ Dead c.store := by
  have hplay : ((scheduleOf sampleServices IssuesUnrevoked).play
      (System.calls 0 (sampleRefresh "raw-1" "token-1") ++ System.calls 2 [Ans.ok, .ok, .hash "#battery staple",
        .ok, .ok, .ok,
        .ok, .ok])
      ⟨sampleStore, fun i => (sampleExit i).program sampleServices⟩).any fun c =>
        c.Ended 0 (.ok (some (sampleSession "raw-1"))) ∧ c.store.refreshTokens.rows.length = 2 ∧
          .revoked "family" ∈ c.store.journal := by
    decide +kernel
  obtain ⟨c, hc, h0, hrows, hrevoked⟩ := System.play_seen _ hplay
  have hr := (scheduleOf sampleServices IssuesUnrevoked).reach_of_play hc
  exact ⟨c, hr, h0, hrows, hrevoked, revoked_families_dead sampleServices sampleExit sampleStore_named rfl hr⟩

/-- The refresh has loaded its token, the logout revokes the family, and the refresh goes on. -/
theorem revoked_family_revived : ∃ c,
    (freshSchedule sampleServices).Reach ⟨sampleStore, fun i => (sampleExit i).program sampleServices⟩ c ∧
    c.Ended 0 (.ok (some (sampleSession "raw-1"))) ∧ c.Ended 1 (.ok none) ∧ ¬ Dead c.store := by
  have hplay : ((freshSchedule sampleServices).play
      (System.calls 0 [Ans.ok] ++ System.calls 1 [Ans.ok, .ok, .ok] ++ System.calls 0
        (sampleRefresh "raw-1" "token-1").tail)
      ⟨sampleStore, fun i => (sampleExit i).program sampleServices⟩).any fun c =>
        c.Ended 0 (.ok (some (sampleSession "raw-1"))) ∧ c.Ended 1 (.ok none) ∧
          .revoked "family" ∈ c.store.journal ∧
          ∃ t ∈ c.store.refreshTokens.rows, t.family = "family" ∧ t.isActive c.store.clock = true := by
    decide +kernel
  obtain ⟨c, hc, h0, h1, hrevoked, t, ht, htf, hactive⟩ := System.play_seen _ hplay
  refine ⟨c, System.reach_of_play _ hc, h0, h1, fun hdead => ?_⟩
  rw [hdead "family" hrevoked t ht htf] at hactive
  cases hactive

end Kudi.Identity
