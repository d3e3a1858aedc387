import KudiCore.Identity.Tokens

/-!
# One live token in each family

| here | there |
| --- | --- |
| `ReplacedOnce`     | the compare-and-set that the two upserts of `RefreshAccessTokenHandler` do without |
| `WellKept`         | the tables to start from: as logins and refreshes, one at a time, leave them |
| `SingleUse`        | at most one live token in a family, at most one session for a token presented |

The token that is last in its family is the one that has not been replaced. A refresh replaces it first and issues its
successor afterwards; in between the family has no token that has not been replaced, and nobody else may issue one.
-/

namespace Kudi.Identity

open Interleave Protocol

/-- `data`, if it is a token that has been replaced, is stored as one that has not been. -/
def NotReplaced (s : Store) (data : RefreshToken) : Prop :=
  data.replacedByTokenId.isSome = true → ∀ t, s.refreshTokens.find? data.id = some t → t.replacedByTokenId = none

instance (s : Store) (data : RefreshToken) : Decidable (NotReplaced s data) :=
  inferInstanceAs (Decidable (_ → ∀ t ∈ s.refreshTokens.find? data.id, t.replacedByTokenId = none))

/-- No token is saved as replaced when it has been replaced already. -/
def ReplacedOnce (s : Store) (_ : PId) (a : Ans) (op : Op) : Prop :=
  Fresh s a ∧ ∀ data ∈ op.savedToken?, NotReplaced s data

instance (services : Services) (s : Store) (i : PId) (a : Ans) (op : Op) :
    Decidable ((scheduleOf services ReplacedOnce).allow s i a op) :=
  inferInstanceAs (Decidable (Fresh s a ∧ ∀ data ∈ op.savedToken?, NotReplaced s data))

structure WellKept (s : Store) : Prop where
  named : Named s
  hashes : ∀ t ∈ s.refreshTokens.rows, ∀ t' ∈ s.refreshTokens.rows, t.tokenHash = t'.tokenHash → t.id = t'.id
  live : ∀ t ∈ s.refreshTokens.rows, t.revokedAt = none → t.replacedByTokenId = none
  last : ∀ t ∈ s.refreshTokens.rows, ∀ t' ∈ s.refreshTokens.rows, t.family = t'.family →
    t.replacedByTokenId = none →
    t'.replacedByTokenId = none → t.id = t'.id

/-- What clients may count on. -/
structure SingleUse (services : Services) (requests : PId → SessionRequest)
    (c : Config Op.Res Err Store Err (Option AuthResponseDto)) : Prop where
  live : ∀ t ∈ c.store.refreshTokens.rows, ∀ t' ∈ c.store.refreshTokens.rows, t.family = t'.family →
    t.isActive c.store.clock = true → t'.isActive c.store.clock = true → t = t'
  used : ∀ i j command command' session session', requests i = .refresh command → requests j = .refresh command' →
    services.hashRefreshToken command.refreshToken = services.hashRefreshToken command'.refreshToken →
    c.Ended i (.ok session) → c.Ended j (.ok session') → i = j

/-! ## The invariant -/

/-- The program has replaced token `t`. -/
structure Rotating.Rotated (st : Rotating) (t : RefreshToken) : Prop where
  found : st.found = some t
  replaced : st.replacement.isSome = true

structure RotationInv (s : Store) (sts : PId → Rotating) : Prop where
  tokens : TokensInv s sts
  kept : WellKept s
  pending : ∀ i t, (sts i).Rotated t → (sts i).issued = false →
    ∀ r ∈ s.refreshTokens.rows, r.family = t.family →
    r.replacedByTokenId.isSome = true
  alone : ∀ i j t t', (sts i).Rotated t → (sts i).issued = false → (sts j).Rotated t' →
    (sts j).issued = false →
    t.family = t'.family → i = j
  rotated : ∀ i t, (sts i).Rotated t → ∃ cur, s.refreshTokens.find? t.id = some cur ∧
    cur.replacedByTokenId.isSome = true
  once : ∀ i j t t', (sts i).Rotated t → (sts j).Rotated t' → t.id = t'.id → i = j

theorem RotationInv.init {s : Store} (h : WellKept s) : RotationInv s fun _ => .init := by
  have hno : ∀ {t}, ¬ Rotating.init.Rotated t := fun ht => nomatch ht.found
  exact ⟨.init h.named, h, fun _ _ ht => absurd ht hno, fun _ _ _ _ ht => absurd ht hno, fun _ _ ht => absurd ht hno,
    fun _ _ _ _ ht => absurd ht hno⟩

/-! ## One step -/

namespace RotationInv

variable {i : PId} {s : Store} {sts : PId → Rotating}

/-- Nobody has rotated a token that he had not rotated before, and the rows are as they were. -/
theorem unmoved (h : RotationInv s sts) {s' : Store} {st' : Rotating} (hinv : TokensInv s' (Function.update sts i st'))
    (hrows : s'.refreshTokens = s.refreshTokens)
    (hst : ∀ t, st'.Rotated t → (sts i).Rotated t ∧ st'.issued = (sts i).issued) :
    RotationInv s' (Function.update sts i st') := by
  have hold : ∀ {j t}, (Function.update sts i st' j).Rotated t →
      (sts j).Rotated t ∧ (Function.update sts i st' j).issued = (sts j).issued := by
    intro j t ht
    rcases update_or sts i j st' with ⟨rfl, he⟩ | ⟨-, he⟩
    · rw [he] at ht ⊢
      exact hst t ht
    · rw [he] at ht ⊢
      exact ⟨ht, rfl⟩
  refine ⟨hinv, ⟨hinv.named, hrows ▸ h.kept.hashes, hrows ▸ h.kept.live, hrows ▸ h.kept.last⟩, ?_,
    ?_, ?_, ?_⟩
  · intro j t ht hissued
    rw [hrows]
    exact h.pending j t (hold ht).1 ((hold ht).2 ▸ hissued)
  · intro j k t t' ht hj ht' hk
    exact h.alone j k t t' (hold ht).1 ((hold ht).2 ▸ hj) (hold ht').1 ((hold ht').2 ▸ hk)
  · intro j t ht
    rw [hrows]
    exact h.rotated j t (hold ht).1
  · intro j k t t' ht ht'
    exact h.once j k t t' (hold ht).1 (hold ht').1

/-- Program `i` replaces the token that it has loaded. -/
theorem replace (h : RotationInv s sts) {t data : RefreshToken} (hr : (sts i).Replaces t data) (hA : NotReplaced s data)
    (hunique : ∀ r ∈ s.refreshTokens.rows, r.tokenHash = data.tokenHash → r.id = data.id)
    (hinv : TokensInv { s with refreshTokens := s.refreshTokens.put data }
      (Function.update sts i { sts i with replacement := data.replacedByTokenId })) :
    RotationInv { s with refreshTokens := s.refreshTokens.put data }
      (Function.update sts i { sts i with replacement := data.replacedByTokenId }) := by
  obtain ⟨cur, hmem, hcur, hid, hfamily, -⟩ := h.tokens.replaced hr
  obtain ⟨newId, -, hnew⟩ := hr.replacedByTokenId
  have hsome : data.replacedByTokenId.isSome = true := by rw [hnew]; rfl
  have hfree : cur.replacedByTokenId = none := hA hsome cur hcur
  have hrevoked : data.revokedAt ≠ none := by
    obtain ⟨now, newId, -, -, rfl⟩ := hr.saved
    exact Option.some_ne_none now
  have htid : data.id = t.id ∧ data.family = t.family := by
    obtain ⟨now, newId, -, -, rfl⟩ := hr.saved
    exact ⟨rfl, rfl⟩
  have hput : ∀ {r}, r ∈ (s.refreshTokens.put data).rows → r = data ∨ r ∈ s.refreshTokens.rows ∧
    r.id ≠ data.id :=
    (Table.mem_put _ _ _).1
  -- Whoever else has rotated a token has not rotated this one, and its family is not this one's.
  have hold : ∀ {j x}, (Function.update sts i { sts i with replacement := data.replacedByTokenId } j).Rotated x →
      (j = i ∧ x = t) ∨ (j ≠ i ∧ (sts j).Rotated x ∧ x.id ≠ data.id ∧
        (Function.update sts i { sts i with replacement := data.replacedByTokenId } j).issued = (sts j).issued ∧
        ((sts j).issued = false → x.family ≠ data.family)) := by
    intro j x hx
    rcases update_or sts i j { sts i with replacement := data.replacedByTokenId } with ⟨rfl, he⟩ | ⟨hj, he⟩
    · rw [he] at hx
      exact .inl ⟨rfl, Option.some.inj (hx.found.symm.trans hr.found)⟩
    · rw [he] at hx ⊢
      refine .inr ⟨hj, hx, fun hxid => ?_, rfl, fun hissued hxf => ?_⟩
      · obtain ⟨r, hr', hrep⟩ := h.rotated j x hx
        rw [hxid, hcur, Option.some.injEq] at hr'
        rw [← hr', hfree] at hrep
        cases hrep
      · have hrep := h.pending j x hx hissued cur hmem (hfamily.trans hxf.symm)
        rw [hfree] at hrep
        cases hrep
  refine ⟨hinv, ⟨hinv.named, ?_, ?_, ?_⟩, ?_, ?_, ?_, ?_⟩
  · intro r hr1 r' hr2 hh
    rcases hput hr1 with rfl | ⟨hold1, -⟩ <;> rcases hput hr2 with rfl | ⟨hold2, -⟩
    · rfl
    · exact (hunique r' hold2 hh.symm).symm
    · exact hunique r hold1 hh
    · exact h.kept.hashes r hold1 r' hold2 hh
  · intro r hr1 hlive
    rcases hput hr1 with rfl | ⟨hr1, -⟩
    · exact absurd hlive hrevoked
    · exact h.kept.live r hr1 hlive
  · intro r hr1 r' hr2 hf hn hn'
    rcases hput hr1 with rfl | ⟨hr1, -⟩
    · rw [hnew] at hn
      cases hn
    · rcases hput hr2 with rfl | ⟨hr2, -⟩
      · rw [hnew] at hn'
        cases hn'
      · exact h.kept.last r hr1 r' hr2 hf hn hn'
  · intro j x hx hissued r hr1 hrf
    rcases hput hr1 with rfl | ⟨hr1, hne⟩
    · exact hsome
    rcases hold hx with ⟨rfl, rfl⟩ | ⟨-, hx', -, hsame, -⟩
    · -- The stored token was the last of its family.
      by_contra hnone
      have hnone : r.replacedByTokenId = none := by simpa using hnone
      have hrid := h.kept.last r hr1 cur hmem (hrf.trans (htid.2.symm.trans hfamily.symm)) hnone hfree
      exact hne (hrid.trans hid)
    · exact h.pending j x hx' (hsame ▸ hissued) r hr1 hrf
  · intro j k x x' hx hj hx' hk hf
    rcases hold hx with ⟨rfl, rfl⟩ | ⟨-, hxr, -, hsame, hne⟩
    · rcases hold hx' with ⟨rfl, -⟩ | ⟨-, -, -, hsame', hne'⟩
      · rfl
      · exact absurd (hf.symm.trans htid.2.symm) (hne' (hsame' ▸ hk))
    · rcases hold hx' with ⟨rfl, rfl⟩ | ⟨-, hxr', -, hsame', -⟩
      · exact absurd (hf.trans htid.2.symm) (hne (hsame ▸ hj))
      · exact h.alone j k x x' hxr (hsame ▸ hj) hxr' (hsame' ▸ hk) hf
  · intro j x hx
    rcases hold hx with ⟨rfl, rfl⟩ | ⟨-, hxr, hne, -⟩
    · exact ⟨data, by rw [← htid.1, Table.find?_put_self], hsome⟩
    · obtain ⟨r, hr', hrep⟩ := h.rotated j x hxr
      exact ⟨r, by rw [Table.find?_put_ne _ (Ne.symm hne)]; exact hr', hrep⟩
  · intro j k x x' hx hx' hxid
    rcases hold hx with ⟨rfl, rfl⟩ | ⟨-, hxr, hne, -⟩
    · rcases hold hx' with ⟨rfl, -⟩ | ⟨-, -, hne', -⟩
      · rfl
      · exact absurd (hxid.symm.trans htid.1.symm) hne'
    · rcases hold hx' with ⟨rfl, rfl⟩ | ⟨-, hxr', -⟩
      · exact absurd (hxid.trans htid.1.symm) hne
      · exact h.once j k x x' hxr hxr' hxid

/-- Program `i` issues a token. -/
theorem issue (h : RotationInv s sts) {data : RefreshToken} (hi : (sts i).Issues data)
    (hunique : ∀ r ∈ s.refreshTokens.rows, r.tokenHash = data.tokenHash → r.id = data.id)
    (hinv : TokensInv { s with refreshTokens := s.refreshTokens.put data }
      (Function.update sts i { sts i with drawn := [], issued := true })) :
    RotationInv { s with refreshTokens := s.refreshTokens.put data }
      (Function.update sts i { sts i with drawn := [], issued := true }) := by
  have hfresh := h.tokens.issued hi
  have hput : ∀ {r}, r ∈ (s.refreshTokens.put data).rows → r = data ∨ r ∈ s.refreshTokens.rows := fun hr =>
    ((Table.mem_put _ _ _).1 hr).imp_right And.left
  have hold : ∀ {j x}, (Function.update sts i { sts i with drawn := [], issued := true } j).Rotated x →
      (sts j).Rotated x ∧ ((Function.update sts i { sts i with drawn := [], issued := true } j).issued = false →
        j ≠ i ∧ (sts j).issued = false) := by
    intro j x hx
    rcases update_or sts i j { sts i with drawn := [], issued := true } with ⟨rfl, he⟩ | ⟨hj, he⟩
    · rw [he] at hx ⊢
      exact ⟨⟨hx.found, hx.replaced⟩, nofun⟩
    · rw [he] at hx ⊢
      exact ⟨hx, fun hissued => ⟨hj, hissued⟩⟩
  -- No stored token of its family is unreplaced.
  have hfamily : ∀ r ∈ s.refreshTokens.rows, r.family = data.family → r.replacedByTokenId.isSome = true := by
    intro r hr hrf
    rcases hi.family with ⟨t, ht, -, hf, -, hrep⟩ | ⟨-, -, hf⟩
    · exact h.pending i t ⟨ht, by rw [hrep]; rfl⟩ hi.unissued r hr (hrf.trans hf)
    · exact absurd hrf ((h.tokens.own i _ hf).2 r hr).2
  -- Nobody else is about to issue one in it.
  have hothers : ∀ {j x}, j ≠ i → (sts j).Rotated x → (sts j).issued = false → data.family ≠ x.family := by
    intro j x hj hx hissued hf
    rcases hi.family with ⟨t, ht, -, hf', -, hrep⟩ | ⟨-, -, hf'⟩
    · exact hj (h.alone i j t x ⟨ht, by rw [hrep]; rfl⟩ hi.unissued hx hissued (hf'.symm.trans hf)).symm
    · obtain ⟨cur, hcur, hcf, -⟩ := h.tokens.found j x hx.found
      exact ((h.tokens.own i _ hf').2 cur (Table.mem_of_find? hcur)).2 (hcf.trans hf.symm)
  refine ⟨hinv, ⟨hinv.named, ?_, ?_, ?_⟩, ?_, ?_, ?_, ?_⟩
  · intro r hr1 r' hr2 hh
    rcases hput hr1 with rfl | hold1 <;> rcases hput hr2 with rfl | hold2
    · rfl
    · exact (hunique r' hold2 hh.symm).symm
    · exact hunique r hold1 hh
    · exact h.kept.hashes r hold1 r' hold2 hh
  · intro r hr1 hlive
    rcases hput hr1 with rfl | hr1
    · exact hi.unreplaced
    · exact h.kept.live r hr1 hlive
  · intro r hr1 r' hr2 hf hn hn'
    rcases hput hr1 with rfl | hold1 <;> rcases hput hr2 with rfl | hold2
    · rfl
    · have hrep := hfamily r' hold2 hf.symm
      rw [hn'] at hrep
      cases hrep
    · have hrep := hfamily r hold1 hf
      rw [hn] at hrep
      cases hrep
    · exact h.kept.last r hold1 r' hold2 hf hn hn'
  · intro j x hx hissued r hr1 hrf
    obtain ⟨hxr, hsame⟩ := hold hx
    obtain ⟨hj, hissued⟩ := hsame hissued
    rcases hput hr1 with rfl | hr1
    · exact absurd hrf (hothers hj hxr hissued)
    · exact h.pending j x hxr hissued r hr1 hrf
  · intro j k x x' hx hj hx' hk hf
    exact h.alone j k x x' (hold hx).1 ((hold hx).2 hj).2 (hold hx').1 ((hold hx').2 hk).2 hf
  · intro j x hx
    obtain ⟨cur, hcur, hrep⟩ := h.rotated j x (hold hx).1
    refine ⟨cur, ?_, hrep⟩
    rw [Table.find?_put_ne]
    · exact hcur
    · exact fun he => hfresh cur (Table.mem_of_find? hcur) ((Table.key_of_find? hcur).trans he.symm)
  · exact fun j k x x' hx hx' hxid => h.once j k x x' (hold hx).1 (hold hx').1 hxid

/-- A revocation replaces nothing. -/
theorem revokeMany (h : RotationInv s sts) (filter : TokenFilter) (revokedAt : Nat)
    (hinv : TokensInv (s.revokeMany filter revokedAt) sts) : RotationInv (s.revokeMany filter revokedAt) sts := by
  have hid := filter.revokes_id revokedAt
  have hsame := filter.revokes_same revokedAt
  refine ⟨hinv, ⟨hinv.named, ?_, ?_, ?_⟩, ?_, h.alone, ?_, h.once⟩
  · intro r hr r' hr' hh
    obtain ⟨r, hmem, rfl⟩ := TokensInv.mem_revokeMany hr
    obtain ⟨r', hmem', rfl⟩ := TokensInv.mem_revokeMany hr'
    rw [(hsame r).2.1, (hsame r').2.1] at hh
    rw [hid, hid]
    exact h.kept.hashes r hmem r' hmem' hh
  · intro r hr hlive
    obtain ⟨r, hmem, rfl⟩ := TokensInv.mem_revokeMany hr
    rw [(hsame r).2.2.1]
    refine h.kept.live r hmem ?_
    unfold TokenFilter.revokes at hlive
    split at hlive
    · exact nomatch hlive
    · exact hlive
  · intro r hr r' hr' hf hn hn'
    obtain ⟨r, hmem, rfl⟩ := TokensInv.mem_revokeMany hr
    obtain ⟨r', hmem', rfl⟩ := TokensInv.mem_revokeMany hr'
    rw [(hsame r).1, (hsame r').1] at hf
    rw [(hsame r).2.2.1] at hn
    rw [(hsame r').2.2.1] at hn'
    rw [hid, hid]
    exact h.kept.last r hmem r' hmem' hf hn hn'
  · intro j t ht hissued r hr hrf
    obtain ⟨r, hmem, rfl⟩ := TokensInv.mem_revokeMany hr
    rw [(hsame r).1] at hrf
    rw [(hsame r).2.2.1]
    exact h.pending j t ht hissued r hmem hrf
  · intro j t ht
    obtain ⟨cur, hcur, hrep⟩ := h.rotated j t ht
    refine ⟨filter.revokes revokedAt cur, ?_, ?_⟩
    · rw [Store.revokeMany, Table.find?_mapRows, hcur]
      rfl
    · rw [(hsame cur).2.2.1]
      exact hrep

/-- **Every move keeps families to one token**, if none is replaced twice. -/
theorem step (h : RotationInv s sts) {s' : Store} {st' : Rotating} (hm : Moves (NotReplaced s) i s (sts i) s' st') :
    RotationInv s' (Function.update sts i st') := by
  have hinv := h.tokens.step hm
  cases hm with
  | stays hs => exact h.unmoved hinv hs.refreshTokens fun t ht => ⟨ht, rfl⟩
  | loads hst found hmem =>
    refine h.unmoved hinv rfl fun t ht => ?_
    have hrep : (sts i).replacement.isSome = true := ht.replaced
    rw [hst] at hrep
    cases hrep
  | draws hst u hu => exact h.unmoved hinv rfl fun t ht => ⟨⟨ht.found, ht.replaced⟩, rfl⟩
  | replaces hr hA hunique => exact h.replace hr hA hunique hinv
  | issues hi hA hunique => exact h.issue hi hunique hinv
  | revokes filter revokedAt hcovers =>
    rw [Function.update_eq_self] at hinv ⊢
    exact h.revokeMany filter revokedAt hinv

end RotationInv

theorem rotation_preserves (services : Services) :
    tokenProtocol.Preserves (scheduleOf services ReplacedOnce) RotationInv where
  call h hok ha hx := by
    obtain ⟨hy, hm⟩ := moves_of_exec (A := NotReplaced _) hok ha.1 (fun data hop => ha.2 data (hop ▸ rfl)) hx
    exact ⟨hy, h.step hm⟩
  act ms h :=
    have hnamed : Named (tick ms _) := ⟨h.tokens.named.drawn, h.tokens.named.owner⟩
    ⟨⟨hnamed, h.tokens.own, h.tokens.apart, h.tokens.found⟩,
      ⟨hnamed, h.kept.hashes, h.kept.live, h.kept.last⟩,
      h.pending, h.alone, h.rotated, h.once⟩

/-! ## Every run -/

/-- **A token is good for one session, and a family has one live token**, in every state of every run in which no token
is saved as replaced that has been replaced already: whatever else interleaves, and whatever fails. -/
theorem tokens_single_use (services : Services) (requests : PId → SessionRequest) {start : Store}
    (hstart : WellKept start)
    {c : Config Op.Res Err Store Err (Option AuthResponseDto)}
    (hr : (scheduleOf services ReplacedOnce).Reach ⟨start, fun i => (requests i).program services⟩ c) :
    SingleUse services requests c := by
  have htracks : tokenProtocol.Tracks RotationInv (fun i st x => Promises services (requests i) st x)
      (⟨start, fun i => (requests i).program services⟩ : Config Op.Res Err Store Err (Option AuthResponseDto))
      fun _ => .init := ⟨.init hstart, fun i => (requests i).obeys⟩
  obtain ⟨sts, hend⟩ := reach (rotation_preserves services) htracks hr
  have hinv : RotationInv c.store sts := hend.1
  have hunrevoked : ∀ {t : RefreshToken}, t.isActive c.store.clock = true → t.revokedAt = none := by
    intro t ht
    simp only [RefreshToken.isActive, RefreshToken.isRevoked, Bool.and_eq_true, Bool.not_eq_true',
      Option.isSome_eq_false_iff, Option.isNone_iff_eq_none] at ht
    exact ht.2
  constructor
  · intro t ht t' ht' hf ha ha'
    have hid := hinv.kept.last t ht t' ht' hf (hinv.kept.live t ht (hunrevoked ha))
      (hinv.kept.live t' ht' (hunrevoked ha'))
    have hrow := Table.find?_of_mem ht
    rw [hid, Table.find?_of_mem ht', Option.some.injEq] at hrow
    exact hrow.symm
  · intro i j command command' session session' hi hj hhash hx hx'
    obtain ⟨hrep, t, ht, hth⟩ := hend.ended hx command session hi rfl
    obtain ⟨hrep', t', ht', hth'⟩ := hend.ended hx' command' session' hj rfl
    obtain ⟨cur, hcur, -, hch, -⟩ := hinv.tokens.found i t ht
    obtain ⟨cur', hcur', -, hch', -⟩ := hinv.tokens.found j t' ht'
    -- The two presented the token in the same row.
    have hid := hinv.kept.hashes cur (Table.mem_of_find? hcur) cur' (Table.mem_of_find? hcur')
      (hch.trans (hth.trans (hhash.trans (hth'.symm.trans hch'.symm))))
    rw [Table.key_of_find? hcur, Table.key_of_find? hcur'] at hid
    exact hinv.once i j t t' ⟨ht, hrep⟩ ⟨ht', hrep'⟩ hid

/-! ## Two clients, one token -/

/-- Program 0 presents the first token, program 1 the one that it gets. -/
def sampleChain : PId → SessionRequest
  | 0 => .refresh ⟨"raw-0", none, none⟩
  | _ => .refresh ⟨"raw-1", none, none⟩

/-- Everybody presents the first token. -/
def sampleRace : PId → SessionRequest := fun _ => .refresh ⟨"raw-0", none, none⟩

theorem sampleStore_wellKept : WellKept sampleStore where
  named := sampleStore_named
  hashes t ht t' ht' _ := by rw [eq_sampleToken ht, eq_sampleToken ht']
  live t ht _ := by
    rw [eq_sampleToken ht]
    rfl
  last t ht t' ht' _ _ _ := by rw [eq_sampleToken ht, eq_sampleToken ht']

theorem tokens_single_use_sample : ∃ c,
    (scheduleOf sampleServices ReplacedOnce).Reach
      ⟨sampleStore, fun i => (sampleChain i).program sampleServices⟩ c ∧
    c.Ended 0 (.ok (some (sampleSession "raw-1"))) ∧ c.Ended 1 (.ok (some (sampleSession "raw-2"))) ∧
    SingleUse sampleServices sampleChain c := by
  have hplay : ((scheduleOf sampleServices ReplacedOnce).play
      (System.calls 0 (sampleRefresh "raw-1" "token-1") ++ System.calls 1 (sampleRefresh "raw-2" "token-2"))
      ⟨sampleStore, fun i => (sampleChain i).program sampleServices⟩).any fun c =>
        c.Ended 0 (.ok (some (sampleSession "raw-1"))) ∧ c.Ended 1 (.ok (some (sampleSession "raw-2"))) := by
    decide +kernel
  obtain ⟨c, hc, h0, h1⟩ := System.play_seen _ hplay
  have hr := (scheduleOf sampleServices ReplacedOnce).reach_of_play hc
  exact ⟨c, hr, h0, h1, tokens_single_use sampleServices sampleChain sampleStore_wellKept hr⟩

/-- Both programs load the token before either replaces it: two sessions, and two live tokens. -/
theorem token_used_twice : ∃ c,
    (freshSchedule sampleServices).Reach ⟨sampleStore, fun i => (sampleRace i).program sampleServices⟩ c ∧
    ¬ SingleUse sampleServices sampleRace c ∧
    (c.store.refreshTokens.rows.filter fun t => t.family = "family" ∧ t.isActive c.store.clock).map (·.id) =
      ["token-1", "token-2"] := by
  have hplay : ((freshSchedule sampleServices).play
      (System.calls 0 [Ans.ok] ++ System.calls 1 [Ans.ok] ++ System.calls 0 (sampleRefresh "raw-1" "token-1").tail ++
        System.calls 1 (sampleRefresh "raw-2" "token-2").tail)
      ⟨sampleStore, fun i => (sampleRace i).program sampleServices⟩).any fun c =>
        (c.Ended 0 (.ok (some (sampleSession "raw-1"))) ∧ c.Ended 1 (.ok (some (sampleSession "raw-2")))) ∧
        (c.store.refreshTokens.rows.filter fun t => t.family = "family" ∧ t.isActive c.store.clock).map (·.id) =
          ["token-1", "token-2"] := by
    decide +kernel
  obtain ⟨c, hc, ⟨h0, h1⟩, hlive⟩ := System.play_seen _ hplay
  refine ⟨c, System.reach_of_play _ hc, fun h => ?_, hlive⟩
  exact absurd (h.used 0 1 _ _ _ _ rfl rfl rfl h0 h1) Nat.zero_ne_one

end Kudi.Identity
