import Mathlib.Data.List.Chain
import KudiCore.Identity.Tokens

/-!
# Sessions, one request at a time

| here | there |
| --- | --- |
| `Linked` | the tokens of a family, oldest first: each replaced by the next, the last by none |
| `Orderly` | what every request leaves behind |
| `Acceptable` | the token is unexpired, the last of a family not revoked, and its user may log in |

`RefreshAccessTokenHandler` looks at `revokedAt` before `expiresAt`, so a token that has been replaced gives its family
away however old it is.
-/

namespace Kudi.Identity

open Interleave

/-! ## Chains of tokens -/

structure Succeeds (t next : RefreshToken) : Prop where
  replaced : t.replacedByTokenId = some next.id
  revoked : t.revokedAt ≠ none

structure Linked (tokens : List RefreshToken) : Prop where
  chain : tokens.IsChain Succeeds
  last : ∀ t ∈ tokens.getLast?, t.replacedByTokenId = none

namespace Linked

theorem nil : Linked [] := ⟨.nil, fun _ ht => nomatch ht⟩

theorem singleton {t : RefreshToken} (h : t.replacedByTokenId = none) : Linked [t] :=
  ⟨.singleton t, fun t' ht => by
    cases ht
    exact h⟩

/-- All but the last have been revoked. -/
theorem revoked {tokens : List RefreshToken} {t : RefreshToken} (h : Linked (tokens ++ [t])) :
    ∀ r ∈ tokens, r.revokedAt ≠ none := by
  intro r hr
  obtain ⟨before, after, rfl⟩ := List.append_of_mem hr
  have hchain := h.chain
  rw [List.append_assoc, List.cons_append] at hchain
  cases after with
  | nil => exact (List.isChain_append_cons_cons.1 hchain).2.1.revoked
  | cons next after => exact (List.isChain_append_cons_cons.1 hchain).2.1.revoked

/-- The last is replaced, and its successor follows it. -/
theorem rotate {tokens : List RefreshToken} {t t' next : RefreshToken} (h : Linked (tokens ++ [t])) (hid : t'.id = t.id)
    (hs : Succeeds t' next) (hnext : next.replacedByTokenId = none) : Linked (tokens ++ [t', next]) := by
  refine ⟨List.isChain_append_cons_cons.2 ⟨?_, hs, .singleton next⟩, fun r hr => ?_⟩
  · have hchain := h.chain
    rcases List.eq_nil_or_concat' tokens with rfl | ⟨before, prev, rfl⟩
    · exact .singleton t'
    · rw [List.append_assoc] at hchain ⊢
      obtain ⟨hbefore, hprev, -⟩ := List.isChain_append_cons_cons.1 hchain
      exact List.isChain_append_cons_cons.2 ⟨hbefore, ⟨hid ▸ hprev.replaced, hprev.revoked⟩, .singleton t'⟩
  · rw [List.getLast?_append, List.getLast?_cons_cons, List.getLast?_singleton, Option.some_or] at hr
    cases hr
    exact hnext

/-- Revoking some of them leaves the links alone. -/
theorem map {tokens : List RefreshToken} (h : Linked tokens) {f : RefreshToken → RefreshToken}
    (hf : ∀ t, (f t).id = t.id ∧ (f t).replacedByTokenId = t.replacedByTokenId ∧
      (t.revokedAt ≠ none → (f t).revokedAt ≠ none)) : Linked (tokens.map f) := by
  have hsucceeds : ∀ t next, Succeeds t next → Succeeds (f t) (f next) := fun t next hs =>
    ⟨by rw [(hf t).2.1, hs.replaced, (hf next).1], (hf t).2.2 hs.revoked⟩
  refine ⟨List.isChain_map_of_isChain f hsucceeds h.chain, fun r hr => ?_⟩
  rw [List.getLast?_map] at hr
  obtain ⟨t, ht, rfl⟩ := Option.map_eq_some_iff.1 hr
  rw [(hf t).2.1]
  exact h.last t ht

end Linked

/-! ## Orderly tables -/

/-- The tokens of a family, in the order in which they were issued. -/
def tokensOf (tokens : Table RefreshToken.id) (family : String) : List RefreshToken :=
  tokens.rows.filter fun t => t.family = family

structure Orderly (services : Services) (tokens : Table RefreshToken.id) (drawn : List String)
    (journal : List TokenStep) : Prop where
  names : ∀ t ∈ tokens.rows, t.id ∈ drawn ∧ t.family ∈ drawn
  owner : ∀ t ∈ tokens.rows, ∀ t' ∈ tokens.rows, t.family = t'.family → t.userId = t'.userId
  hashed : ∀ t ∈ tokens.rows, ∃ raw ∈ drawn, t.tokenHash = services.hashRefreshToken raw
  unique : ∀ t ∈ tokens.rows, ∀ t' ∈ tokens.rows, t.tokenHash = t'.tokenHash → t = t'
  linked : ∀ family, Linked (tokensOf tokens family)
  revoked : ∀ family, ∀ t ∈ (tokensOf tokens family).getLast?, t.revokedAt ≠ none ↔
    .revoked family ∈ journal
  named : ∀ family, .revoked family ∈ journal → family ∈ drawn

theorem mem_tokensOf {tokens : Table RefreshToken.id} {family : String} {t : RefreshToken} :
    t ∈ tokensOf tokens family ↔ t ∈ tokens.rows ∧ t.family = family := by
  simp [tokensOf]

namespace Orderly

variable {services : Services} {tokens : Table RefreshToken.id} {drawn : List String} {journal : List TokenStep}

theorem empty (drawn : List String) : Orderly services .empty drawn [] := by
  have hno : ∀ {t}, t ∉ (Table.empty : Table RefreshToken.id).rows := List.not_mem_nil
  exact ⟨fun _ ht => absurd ht hno, fun _ ht => absurd ht hno, fun _ ht => absurd ht hno, fun _ ht => absurd ht hno,
    fun _ => .nil, fun _ _ => nofun, fun _ hf => absurd hf List.not_mem_nil⟩

/-- More has been drawn, and tokens have been looked at. -/
theorem mono (h : Orderly services tokens drawn journal) {drawn' : List String} (hd : drawn ⊆ drawn')
    {journal' : List TokenStep} (hj : ∀ family, .revoked family ∈ journal' ↔ .revoked family ∈ journal) :
    Orderly services tokens drawn' journal' where
  names t ht := ⟨hd (h.names t ht).1, hd (h.names t ht).2⟩
  owner := h.owner
  hashed t ht := by
    obtain ⟨raw, hraw, hhash⟩ := h.hashed t ht
    exact ⟨raw, hd hraw, hhash⟩
  unique := h.unique
  linked := h.linked
  revoked family t ht := (h.revoked family t ht).trans (hj family).symm
  named family hf := hd (h.named family ((hj family).1 hf))

/-- A live token is the last of its family, which has not been revoked. -/
theorem last_of_live (h : Orderly services tokens drawn journal) {t : RefreshToken} (ht : t ∈ tokens.rows)
    (hlive : t.revokedAt = none) :
    (∃ before, tokensOf tokens t.family = before ++ [t]) ∧ .revoked t.family ∉ journal := by
  have hmem : t ∈ tokensOf tokens t.family := mem_tokensOf.2 ⟨ht, rfl⟩
  rcases List.eq_nil_or_concat' (tokensOf tokens t.family) with hnil | ⟨before, last, heq⟩
  · rw [hnil] at hmem
    exact absurd hmem List.not_mem_nil
  have hlinked := h.linked t.family
  rw [heq] at hmem hlinked
  rcases List.mem_append.1 hmem with hbefore | hlast
  · exact absurd hlive (hlinked.revoked t hbefore)
  · obtain rfl := List.mem_singleton.1 hlast
    refine ⟨⟨before, heq⟩, fun hf => ?_⟩
    have hgot : t ∈ (tokensOf tokens t.family).getLast? := by rw [heq, List.getLast?_concat]; rfl
    exact (h.revoked t.family t hgot).2 hf hlive

/-- An earlier token has been revoked. -/
theorem revoked_of_earlier (h : Orderly services tokens drawn journal) {t : RefreshToken} (ht : t ∈ tokens.rows)
    (hearlier : (tokensOf tokens t.family).getLast? ≠ some t) : t.revokedAt ≠ none := by
  intro hlive
  obtain ⟨⟨before, heq⟩, -⟩ := h.last_of_live ht hlive
  rw [heq, List.getLast?_concat] at hearlier
  exact hearlier rfl

/-! ### What the requests do to it -/

/-- A token that starts a family. -/
theorem start (h : Orderly services tokens drawn journal) {t : RefreshToken} {raw : String} (hid : t.id ∈ drawn)
    (hfamily : t.family ∈ drawn) (hraw : raw ∈ drawn) (hhash : t.tokenHash = services.hashRefreshToken raw)
    (hlive : t.revokedAt = none) (hlast : t.replacedByTokenId = none)
    (hnew : ∀ r ∈ tokens.rows, r.id ≠ t.id ∧ r.family ≠ t.family ∧ r.tokenHash ≠ t.tokenHash)
    (hfresh : .revoked t.family ∉ journal) : Orderly services (tokens.put t) drawn journal := by
  have hfree : tokens.find? t.id = none := by
    cases hf : tokens.find? t.id with
    | none => rfl
    | some r => exact absurd (Table.key_of_find? hf) (hnew r (Table.mem_of_find? hf)).1
  have hrows := Table.rows_put_new hfree
  have hput : ∀ {r}, r ∈ (tokens.put t).rows → r ∈ tokens.rows ∨ r = t := fun hr => by
    rw [hrows, List.mem_append, List.mem_singleton] at hr
    exact hr
  have hof : ∀ family, tokensOf (tokens.put t) family = if t.family =
    family then [t] else tokensOf tokens family := by
    intro family
    unfold tokensOf
    rw [hrows, List.filter_append]
    split
    · rename_i hf
      have hnone : tokens.rows.filter (fun r => r.family = family) = [] :=
        List.filter_eq_nil_iff.2 fun r hr hrf => (hnew r hr).2.1 ((of_decide_eq_true hrf).trans hf.symm)
      rw [hnone, List.nil_append]
      simp [hf]
    · rename_i hf
      rw [List.filter_cons_of_neg (by simpa using hf), List.filter_nil, List.append_nil]
  refine ⟨fun r hr => ?_, fun r hr r' hr' hf => ?_, fun r hr => ?_, fun r hr r' hr' hh => ?_, fun family => ?_,
    fun family r hr => ?_, h.named⟩
  · rcases hput hr with hr | rfl
    · exact h.names r hr
    · exact ⟨hid, hfamily⟩
  · rcases hput hr with hold | rfl <;> rcases hput hr' with hold' | rfl
    · exact h.owner r hold r' hold' hf
    · exact absurd hf (hnew r hold).2.1
    · exact absurd hf.symm (hnew r' hold').2.1
    · rfl
  · rcases hput hr with hr | rfl
    · exact h.hashed r hr
    · exact ⟨raw, hraw, hhash⟩
  · rcases hput hr with hold | rfl <;> rcases hput hr' with hold' | rfl
    · exact h.unique r hold r' hold' hh
    · exact absurd hh (hnew r hold).2.2
    · exact absurd hh.symm (hnew r' hold').2.2
    · rfl
  · rw [hof]
    split
    · exact .singleton hlast
    · exact h.linked family
  · rw [hof] at hr
    split at hr
    · rename_i hf
      cases hr
      exact iff_of_false (fun hne => hne hlive) (hf ▸ hfresh)
    · exact h.revoked family r hr

/-- The last token of a family is replaced by a new one. -/
theorem rotate (h : Orderly services tokens drawn journal) {t t' next : RefreshToken} {raw : String}
    (ht : t ∈ tokens.rows) (hlive : t.revokedAt = none) (hold : t' = { t with
      revokedAt := t'.revokedAt
      replacedByTokenId := some next.id })
    (hrevoked : t'.revokedAt ≠ none) (hid : next.id ∈ drawn) (hraw : raw ∈ drawn)
    (hhash : next.tokenHash = services.hashRefreshToken raw) (hnext : next.revokedAt = none)
    (hlast : next.replacedByTokenId = none) (hfamily : next.family = t.family) (howner : next.userId = t.userId)
    (hnew : ∀ r ∈ tokens.rows, r.id ≠ next.id ∧ r.tokenHash ≠ next.tokenHash) :
    Orderly services ((tokens.put t').put next) drawn journal := by
  obtain ⟨⟨before, hbefore⟩, hunrevoked⟩ := h.last_of_live ht hlive
  have hsame : t'.id = t.id ∧ t'.family = t.family ∧ t'.tokenHash = t.tokenHash ∧ t'.userId = t.userId ∧
      t'.replacedByTokenId = some next.id := by
    rw [hold]
    exact ⟨rfl, rfl, rfl, rfl, rfl⟩
  have hfound : tokens.find? t'.id = some t := hsame.1 ▸ Table.find?_of_mem ht
  have hne : t'.id ≠ next.id := hsame.1 ▸ (hnew t ht).1
  have hfree : (tokens.put t').find? next.id = none := by
    rw [Table.find?_put_ne _ hne]
    cases hf : tokens.find? next.id with
    | none => rfl
    | some r => exact absurd (Table.key_of_find? hf) (hnew r (Table.mem_of_find? hf)).1
  have hrows : ((tokens.put t').put next).rows =
      (tokens.rows.map fun r => if r.id = t'.id then t' else r) ++ [next] := by
    rw [Table.rows_put_new hfree, Table.rows_put_old hfound]
  -- Only the row of `t` has changed, and only in what `t'` says.
  have hmem : ∀ {r}, r ∈ ((tokens.put t').put next).rows →
      r = next ∨ ∃ r0 ∈ tokens.rows, r0.id = r.id ∧ r0.family = r.family ∧ r0.tokenHash = r.tokenHash ∧
        r0.userId = r.userId ∧ r = if r0.id = t'.id then t' else r0 := by
    intro r hr
    rw [hrows, List.mem_append, List.mem_singleton] at hr
    refine hr.symm.imp_right fun hr => ?_
    obtain ⟨r0, hr0, rfl⟩ := List.mem_map.1 hr
    refine ⟨r0, hr0, ?_⟩
    split
    · rename_i hr0id
      obtain rfl : r0 = t := by
        have hfound0 := Table.find?_of_mem hr0
        rw [hr0id, hfound, Option.some.injEq] at hfound0
        exact hfound0.symm
      exact ⟨hsame.1.symm, hsame.2.1.symm, hsame.2.2.1.symm, hsame.2.2.2.1.symm, rfl⟩
    · exact ⟨rfl, rfl, rfl, rfl, rfl⟩
  have hof : ∀ family, tokensOf ((tokens.put t').put next) family =
      if t.family = family then before ++ [t', next] else tokensOf tokens family := by
    intro family
    unfold tokensOf
    have hpred : ((fun r : RefreshToken => decide (r.family = family)) ∘ fun r => if r.id = t'.id then t' else r) =
        fun r => decide ((if r.id = t'.id then t' else r).family = family) := rfl
    have hkeep : ∀ r ∈ tokens.rows, ((if r.id = t'.id then t' else r).family = family ↔ r.family = family) := by
      intro r hr
      split
      · rename_i hrid
        obtain rfl : r = t := by
          have hfound0 := Table.find?_of_mem hr
          rw [hrid, hfound, Option.some.injEq] at hfound0
          exact hfound0.symm
        rw [hsame.2.1]
      · exact Iff.rfl
    rw [hrows, List.filter_append, List.filter_map, hpred,
      List.filter_congr fun r hr => decide_eq_decide.2 (hkeep r hr)]
    have hrest : ∀ l : List RefreshToken, (∀ r ∈ l, r.id ≠ t'.id) →
        l.map (fun r => if r.id = t'.id then t' else r) = l := fun l hl => by
      rw [List.map_congr_left fun r hr => if_neg (hl r hr), List.map_id']
    split
    · rename_i hf
      subst hf
      have hnodup : ((before ++ [t]).map RefreshToken.id).Nodup := by
        rw [← hbefore]
        exact tokens.nodup.sublist (List.filter_sublist.map _)
      rw [List.map_append, List.nodup_append] at hnodup
      have hbeforeids : ∀ r ∈ before, r.id ≠ t'.id := fun r hr hrid =>
        hnodup.2.2 r.id (List.mem_map_of_mem hr) t.id (List.mem_singleton_self t.id) (hrid.trans hsame.1)
      have heq : tokens.rows.filter (fun r => decide (r.family = t.family)) = before ++ [t] := hbefore
      rw [heq, List.map_append, hrest before hbeforeids, List.map_singleton, if_pos hsame.1.symm, List.append_assoc]
      simp [hfamily]
    · rename_i hf
      rw [List.filter_cons_of_neg (by simpa [hfamily] using hf), List.filter_nil, List.append_nil, hrest]
      intro r hr hrid
      obtain ⟨hrmem, hrf⟩ := List.mem_filter.1 hr
      have hfound0 := Table.find?_of_mem hrmem
      rw [hrid, hfound, Option.some.injEq] at hfound0
      exact hf (hfound0 ▸ of_decide_eq_true hrf)
  refine ⟨fun r hr => ?_, fun r hr r' hr' hf => ?_, fun r hr => ?_, fun r hr r' hr' hh => ?_, fun family => ?_,
    fun family r hr => ?_, h.named⟩
  · rcases hmem hr with rfl | ⟨r0, hr0, hid0, hf0, -⟩
    · exact ⟨hid, hfamily ▸ (h.names t ht).2⟩
    · exact hid0 ▸ hf0 ▸ h.names r0 hr0
  · rcases hmem hr with rfl | ⟨r0, hr0, -, hf0, -, hu0, -⟩ <;>
      rcases hmem hr' with rfl | ⟨r1, hr1, -, hf1, -, hu1, -⟩
    · rfl
    · rw [howner, ← hu1]
      exact h.owner t ht r1 hr1 (hfamily.symm.trans (hf.trans hf1.symm))
    · rw [howner, ← hu0]
      exact h.owner r0 hr0 t ht (hf0.trans (hf.trans hfamily))
    · exact hu0.symm.trans ((h.owner r0 hr0 r1 hr1 (hf0.trans (hf.trans hf1.symm))).trans hu1)
  · rcases hmem hr with rfl | ⟨r0, hr0, -, -, hh0, -⟩
    · exact ⟨raw, hraw, hhash⟩
    · exact hh0 ▸ h.hashed r0 hr0
  · rcases hmem hr with rfl | ⟨r0, hr0, -, -, hh0, -, he0⟩ <;>
      rcases hmem hr' with rfl | ⟨r1, hr1, -, -, hh1, -, he1⟩
    · rfl
    · exact absurd (hh1.trans hh.symm) (hnew r1 hr1).2
    · exact absurd (hh0.trans hh) (hnew r0 hr0).2
    · rw [he0, he1, h.unique r0 hr0 r1 hr1 (hh0.trans (hh.trans hh1.symm))]
  · rw [hof]
    split
    · rename_i hf
      have hlinked := h.linked t.family
      rw [hbefore] at hlinked
      exact hlinked.rotate hsame.1 ⟨hsame.2.2.2.2, hrevoked⟩ hlast
    · exact h.linked family
  · rw [hof] at hr
    split at hr
    · rename_i hf
      rw [List.getLast?_append, List.getLast?_cons_cons, List.getLast?_singleton, Option.some_or] at hr
      cases hr
      exact iff_of_false (fun hne => hne hnext) (hf ▸ hunrevoked)
    · exact h.revoked family r hr

/-- The families of some stored tokens are revoked, as far as they go. -/
theorem revoke (h : Orderly services tokens drawn journal) {filter : TokenFilter} {revokedAt : Nat}
    {families : List String} (hstored : ∀ family ∈ families, ∃ t ∈ tokens.rows, t.family = family)
    (hcovers : ∀ t ∈ tokens.rows, filter.covers t = true ↔ t.family ∈ families) :
    Orderly services (tokens.mapRows (filter.revokes revokedAt) (filter.revokes_id revokedAt)) drawn
      (journal ++ families.map .revoked) := by
  have hsame := filter.revokes_same revokedAt
  have hid := filter.revokes_id revokedAt
  have hmem : ∀ {t}, t ∈ (tokens.mapRows (filter.revokes revokedAt) hid).rows →
      ∃ r ∈ tokens.rows, filter.revokes revokedAt r = t := List.mem_map.1
  have hof : ∀ family, tokensOf (tokens.mapRows (filter.revokes revokedAt) hid) family =
      (tokensOf tokens family).map (filter.revokes revokedAt) := by
    intro family
    have hpred : ((fun t : RefreshToken => decide (t.family = family)) ∘ filter.revokes revokedAt) =
        fun t => decide (t.family = family) := by
      funext t
      simp [(hsame t).1]
    simp only [tokensOf, Table.mapRows, List.filter_map, hpred]
  have hkeeps : ∀ {t : RefreshToken}, t.revokedAt ≠ none → (filter.revokes revokedAt t).revokedAt ≠ none := by
    intro t ht
    unfold TokenFilter.revokes
    split
    · exact Option.some_ne_none revokedAt
    · exact ht
  have hcovered : ∀ {t : RefreshToken}, filter.covers t = true →
    (filter.revokes revokedAt t).revokedAt ≠ none := by
    intro t ht
    unfold TokenFilter.revokes
    rw [ht, Bool.true_and]
    split
    · exact Option.some_ne_none revokedAt
    · rename_i hn
      simpa [RefreshToken.isRevoked] using hn
  have hspared : ∀ {t : RefreshToken}, filter.covers t ≠ true → filter.revokes revokedAt t = t := by
    intro t ht
    unfold TokenFilter.revokes
    rw [if_neg (fun he => ht (Bool.and_eq_true_iff.1 he).1)]
  have hjournal : ∀ {family}, .revoked family ∈ journal ++ families.map TokenStep.revoked ↔
      .revoked family ∈ journal ∨ family ∈ families := by
    intro family
    simp [List.mem_append, List.mem_map]
  refine ⟨fun t ht => ?_, fun t ht t' ht' hf => ?_, fun t ht => ?_, fun t ht t' ht' hh => ?_, fun family => ?_,
    fun family t ht => ?_, fun family hf => ?_⟩
  · obtain ⟨r, hr, rfl⟩ := hmem ht
    rw [hid, (hsame r).1]
    exact h.names r hr
  · obtain ⟨r, hr, rfl⟩ := hmem ht
    obtain ⟨r', hr', rfl⟩ := hmem ht'
    rw [(hsame r).1, (hsame r').1] at hf
    rw [(hsame r).2.2.2, (hsame r').2.2.2]
    exact h.owner r hr r' hr' hf
  · obtain ⟨r, hr, rfl⟩ := hmem ht
    rw [(hsame r).2.1]
    exact h.hashed r hr
  · obtain ⟨r, hr, rfl⟩ := hmem ht
    obtain ⟨r', hr', rfl⟩ := hmem ht'
    rw [(hsame r).2.1, (hsame r').2.1] at hh
    rw [h.unique r hr r' hr' hh]
  · rw [hof]
    exact (h.linked family).map fun t => ⟨hid t, (hsame t).2.2.1, hkeeps⟩
  · rw [hof, List.getLast?_map] at ht
    obtain ⟨r, hr, rfl⟩ := Option.map_eq_some_iff.1 ht
    obtain ⟨hrmem, hrf⟩ := mem_tokensOf.1 (List.mem_of_getLast? hr)
    have hold := h.revoked family r hr
    rw [hjournal]
    by_cases hc : filter.covers r = true
    · exact iff_of_true (hcovered hc) (.inr (hrf ▸ (hcovers r hrmem).1 hc))
    · rw [hspared hc, hold]
      exact ⟨.inl, fun hf => hf.resolve_right fun hf => hc ((hcovers r hrmem).2 (hrf ▸ hf))⟩
  · rcases hjournal.1 hf with hf | hf
    · exact h.named family hf
    · obtain ⟨t, ht, rfl⟩ := hstored family hf
      exact (h.names t ht).2

end Orderly

/-! ## One request at a time -/

/-- Nothing fails, and random strings are new. -/
def Calm (s : Store) (_ : PId) (a : Ans) (_ : Op) : Prop := Fresh s a ∧ a.isFail = false

instance (services : Services) (s : Store) (i : PId) (a : Ans) (op : Op) :
    Decidable ((scheduleOf services Calm).allow s i a op) :=
  inferInstanceAs (Decidable (Fresh s a ∧ a.isFail = false))

def TimePasses (s s' : Store) : Prop := ∃ ms, s' = tick ms s

abbrev Alone (services : Services) (i : PId) {ε α : Type} (K : Store → Prop) (p : Prog Op.Res Err ε α)
    (Q : α → Store → Prop) (R : ε → Store → Prop) : Prop :=
  Triple (scheduleOf services Calm) TimePasses i K p Q R

def InOrder (services : Services) (s : Store) : Prop := Orderly services s.refreshTokens s.drawn s.journal

/-- The calls that a unique index can refuse. -/
def Op.upserts : Op → Bool
  | .refreshToken (.upsert _) | .user (.upsert _) => true
  | _ => false

/-- It is about tokens. -/
def Steady (K : Store → Prop) : Prop := ∀ {s s'}, s.SameTokens s' → K s → K s'

section
variable {services : Services} {i : PId} {ε α β : Type} {K : Store → Prop}

theorem not_ok {e : ε} : ¬ ∃ a, (.error e : Except ε α) = .ok a := by
  rintro ⟨a, ha⟩
  cases ha

theorem inOrder_steady : Steady (InOrder services) := fun hs h => by
  unfold InOrder at h ⊢
  rw [hs.refreshTokens]
  exact h.mono hs.drawn fun family => by rw [hs.journal]

theorem Steady.passes (hK : Steady K) {s s' : Store} (h : TimePasses s s') (hs : K s) : K s' := by
  obtain ⟨ms, rfl⟩ := h
  have hsame : s.SameTokens (tick ms s) := ⟨rfl, rfl, List.Subset.refl _⟩
  exact hK hsame hs

/-- Only a unique index refuses a row. -/
theorem not_refused {s s' : Store} {a : Ans} {op : Op} {e : Err} (ha : a.isFail = false) (hop : op.upserts = false) :
    exec services i a op s ≠ some (.error e, s') := by
  intro h
  cases a with
  | fail e => cases ha
  | ok =>
    cases op with
    | refreshToken q =>
      cases q with
      | upsert data => cases hop
      | _ => cases h
    | user q =>
      cases q with
      | upsert data => cases hop
      | _ => cases h
    | _ => cases h
  | _ => cases op <;> cases h

/-- Calls that have nothing to do with tokens. -/
theorem Alone.quiet {p : Prog Op.Res Err ε α} {P : α → Prop} (hK : Steady K)
    (hp : p.Calls fun op => op.ofTokens = false) (hr : p.Returns P) :
    Alone services i K p (fun a s => P a ∧ K s) fun _ => K :=
  Triple.of_calls_returns hp hr hK.passes fun h hop _ hx => hK (exec_sameTokens hop hx) h

theorem Alone.quiet_bind {p : Prog Op.Res Err ε α} {f : α → Prog Op.Res Err ε β} {P : α → Prop}
    {Q : β → Store → Prop} {R : ε → Store → Prop} (hK : Steady K) (hp : p.Calls fun op => op.ofTokens = false)
    (hr : p.Returns P) (hf : ∀ a, P a → Alone services i K (f a) Q R) (hR : ∀ e s, K s → R e s) :
    Alone services i K (p >>= f) Q R :=
  .bind ((Alone.quiet hK hp hr).mono (fun _ h => h) (fun _ _ h => h) hR) fun a => .of_and fun ha => hf a ha

/-- ... one of them, that does not fail. -/
theorem Alone.quiet_await_bind {op : Op} {f : op.Res → Handler β} {Q : β → Store → Prop}
    {R : Err → Store → Prop}
    (hK : Steady K) (hop : op.ofTokens = false) (hsave : op.upserts = false)
    (hf : ∀ a, Alone services i K (f a) Q R) : Alone services i K (Prog.await op >>= f) Q R :=
  .bind (.await hK.passes (fun h _ hx => hK (exec_sameTokens hop hx) h)
    fun _ ha hx => absurd hx (not_refused ha.2 hsave)) hf

/-! ### Tokens found and revoked -/

/-- `t` is stored. -/
def Stored (services : Services) (t : RefreshToken) (s : Store) : Prop :=
  InOrder services s ∧ t ∈ s.refreshTokens.rows

theorem stored_steady {t : RefreshToken} : Steady (Stored services t) := fun hs h =>
  ⟨inOrder_steady hs h.1, hs.refreshTokens ▸ h.2⟩

theorem presented_revoked {found : Option RefreshToken} {journal : List TokenStep} {family : String} :
    .revoked family ∈ journal ++ presented i found ↔ .revoked family ∈ journal := by
  cases found <;> simp [presented]

theorem PrismaRefreshTokenRepository.findByTokenHash_finds (tokenHash : String) :
    Alone services i (InOrder services) (PrismaRefreshTokenRepository.findByTokenHash tokenHash)
      (fun found s => InOrder services s ∧
        found = s.refreshTokens.rows.find? fun t => t.tokenHash = tokenHash) fun _ _ => False := by
  refine .bind (M := fun found s => InOrder services s ∧
    found = s.refreshTokens.rows.find? fun t => t.tokenHash = tokenHash) ?_ fun found => .pure fun s hs => ?_
  · refine .await inOrder_steady.passes (fun h _ hx => ?_) fun _ ha hx => absurd hx (not_refused ha.2 rfl)
    · obtain ⟨rfl, rfl⟩ := exec_token_find hx
      exact ⟨h.mono (List.Subset.refl _) fun family => presented_revoked, rfl⟩
  · rw [← hs.2]
    exact ⟨hs.1, by cases found <;> rfl⟩

/-- A family is revoked. -/
theorem PrismaRefreshTokenRepository.revokeFamily_revokes (t : RefreshToken) :
    Alone services i (Stored services t) (PrismaRefreshTokenRepository.revokeFamily t.family)
      (fun _ s => InOrder services s ∧ .revoked t.family ∈ s.journal) fun _ _ => False := by
  refine Alone.quiet_await_bind stored_steady rfl rfl fun now => ?_
  refine .bind (.await stored_steady.passes (fun h _ hx => ?_) fun _ ha hx => absurd hx (not_refused ha.2 rfl))
    fun _ => .pure fun _ h => h
  · obtain rfl := exec_token_updateMany hx
    refine ⟨Orderly.revoke h.1 (fun family hf => ?_) fun r hr => ?_, ?_⟩
    · exact ⟨t, h.2, (List.mem_singleton.1 hf).symm⟩
    · simp [TokenFilter.covers, Store.families]
    · exact List.mem_append_right _ (List.mem_singleton_self _)

theorem PrismaRefreshTokenRepository.revokeAllForUser_upholds (userId : String) :
    Upholds (scheduleOf services Calm) TimePasses i (InOrder services)
      (PrismaRefreshTokenRepository.revokeAllForUser userId) := by
  refine Alone.quiet_await_bind inOrder_steady rfl rfl fun now => ?_
  refine .bind (.await inOrder_steady.passes (fun h _ hx => ?_) fun h _ hx => exec_error hx ▸ h)
    fun _ => .pure fun _ h => h
  obtain rfl := exec_token_updateMany hx
  refine h.revoke (fun family hf => ?_) fun r hr => ?_
  · obtain ⟨t, ht, rfl⟩ := List.mem_map.1 hf
    exact ⟨t, (List.mem_filter.1 ht).1, rfl⟩
  · simp only [TokenFilter.covers, Store.families, beq_iff_eq, List.mem_map, List.mem_filter]
    constructor
    · exact fun hu => ⟨r, ⟨hr, hu⟩, rfl⟩
    · rintro ⟨t, ⟨ht, hu⟩, hf⟩
      rw [h.owner r hr t ht hf.symm, hu]

/-! ### Tokens made -/

/-- A raw token that is nobody's. -/
structure Drew (services : Services) (raw : String) (s : Store) : Prop where
  drawn : raw ∈ s.drawn
  unused : ∀ r ∈ s.refreshTokens.rows, r.tokenHash ≠ services.hashRefreshToken raw

theorem drew_steady {raw : String} : Steady (Drew services raw) := fun hs h =>
  ⟨hs.drawn h.drawn, hs.refreshTokens ▸ h.unused⟩

theorem Steady.and {K K' : Store → Prop} (hK : Steady K) (hK' : Steady K') : Steady fun s => K s ∧ K' s :=
  fun hs h => ⟨hK hs h.1, hK' hs h.2⟩

theorem generate_draws (hinj : Function.Injective services.hashRefreshToken) (hK : Steady K)
    (horder : ∀ s, K s → InOrder services s) :
    Alone services i K (Prog.await Op.generateOpaqueRefreshToken) (fun raw s => K s ∧ Drew services raw s)
      fun _ _ => False := by
  refine .await hK.passes (fun {s a raw s'} h ha hx => ?_) fun _ ha hx => absurd hx (not_refused ha.2 rfl)
  · obtain ⟨rfl, rfl⟩ := exec_generate hx
    have hsame : s.SameTokens { s with drawn := raw :: s.drawn } := ⟨rfl, rfl, List.subset_cons_self _ _⟩
    refine ⟨hK hsame h, List.mem_cons_self, fun r hr hhash => ?_⟩
    obtain ⟨raw', hraw', hhash'⟩ := (horder s h).hashed r hr
    have hnew : raw ∉ s.drawn := ha.1
    exact hnew (hinj (hhash.symm.trans hhash') ▸ hraw')

/-- `next` is a token that can be issued. -/
structure Minted (services : Services) (userId : String) (family : Option String) (raw : String) (next : RefreshToken)
    (s : Store) : Prop where
  drew : Drew services raw s
  id : next.id ≠ "" ∧ next.id ∈ s.drawn ∧ ∀ r ∈ s.refreshTokens.rows, r.id ≠ next.id
  hash : next.tokenHash = services.hashRefreshToken raw
  live : next.revokedAt = none
  last : next.replacedByTokenId = none
  owner : next.userId = userId
  known : ∀ f, family = some f → next.family = f
  fresh : family = none → next.family ∈ s.drawn ∧ (∀ r ∈ s.refreshTokens.rows, r.family ≠ next.family) ∧
    .revoked next.family ∉ s.journal

/-- A random string that is the name of nothing. -/
structure Unnamed (u : String) (s : Store) : Prop where
  drawn : u ∈ s.drawn
  unused : ∀ r ∈ s.refreshTokens.rows, r.id ≠ u ∧ r.family ≠ u
  spared : .revoked u ∉ s.journal

theorem unnamed_steady {u : String} : Steady (Unnamed u) := fun hs h =>
  ⟨hs.drawn h.drawn, hs.refreshTokens ▸ h.unused, hs.journal ▸ h.spared⟩

theorem randomUUID_draws (hK : Steady K) (horder : ∀ s, K s → InOrder services s) :
    Alone services i K (Prog.await Op.randomUUID) (fun u s => u ≠ "" ∧ K s ∧ Unnamed u s) fun _ _ => False := by
  refine .await hK.passes (fun {s a u s'} h ha hx => ?_) fun _ ha hx => absurd hx (not_refused ha.2 rfl)
  · obtain ⟨rfl, rfl⟩ := exec_randomUUID hx
    have hsame : s.SameTokens { s with drawn := u :: s.drawn } := ⟨rfl, rfl, List.subset_cons_self _ _⟩
    obtain ⟨hne, hnew⟩ : u ≠ "" ∧ u ∉ s.drawn := ha.1
    refine ⟨hne, hK hsame h, List.mem_cons_self, fun r hr => ⟨?_, ?_⟩, fun hf => hnew ((horder s h).named u hf)⟩
    · rintro rfl
      exact hnew ((horder s h).names r hr).1
    · rintro rfl
      exact hnew ((horder s h).names r hr).2

theorem RefreshToken.issue_mints (hK : Steady K) (horder : ∀ s, K s → InOrder services s) {raw userId : String}
    {family ipAddress userAgent : Option String} :
    Alone services i (fun s => K s ∧ Drew services raw s)
      (RefreshToken.issue userId (services.hashRefreshToken raw) family ipAddress userAgent)
      (fun next s => K s ∧ Minted services userId family raw next s) fun _ _ => False := by
  have hKD : Steady fun s => K s ∧ Drew services raw s := hK.and drew_steady
  unfold RefreshToken.issue
  refine Alone.quiet_await_bind hKD rfl rfl fun now => ?_
  refine .bind (randomUUID_draws hKD fun s h => horder s h.1) fun id => .of_and fun hid => ?_
  have hKDU : Steady fun s => (K s ∧ Drew services raw s) ∧ Unnamed id s := hKD.and unnamed_steady
  cases family with
  | some f =>
    refine Alone.quiet_await_bind hKDU rfl rfl fun createdAt => .pure ?_
    rintro s ⟨⟨hKs, hdrew⟩, hu⟩
    refine ⟨hKs, hdrew, ⟨hid, hu.drawn, fun r hr => (hu.unused r hr).1⟩, rfl, rfl, rfl, rfl,
      fun f' hf => ?_, nofun⟩
    exact Option.some.inj hf
  | none =>
    refine .bind (randomUUID_draws hKDU fun s h => horder s h.1.1) fun family => .of_and fun _ => ?_
    refine Alone.quiet_await_bind (hKDU.and unnamed_steady) rfl rfl fun createdAt => .pure ?_
    rintro s ⟨⟨⟨hKs, hdrew⟩, hu⟩, hf⟩
    exact ⟨hKs, hdrew, ⟨hid, hu.drawn, fun r hr => (hu.unused r hr).1⟩, rfl, rfl, rfl, rfl, nofun,
      fun _ => ⟨hf.drawn, fun r hr => (hf.unused r hr).2, hf.spared⟩⟩

theorem minted_steady {userId raw : String} {family : Option String} {next : RefreshToken} :
    Steady (Minted services userId family raw next) := fun hs h =>
  ⟨drew_steady hs h.drew, ⟨h.id.1, hs.drawn h.id.2.1, hs.refreshTokens ▸ h.id.2.2⟩, h.hash, h.live,
    h.last, h.owner,
    h.known, fun hf => ⟨hs.drawn (h.fresh hf).1, hs.refreshTokens ▸ (h.fresh hf).2.1,
      hs.journal ▸ (h.fresh hf).2.2⟩⟩

/-! ### Tokens saved -/

/-- `t` has been saved since `K`. -/
def Saved (K : Store → Prop) (t : RefreshToken) (s : Store) : Prop :=
  ∃ s0, K s0 ∧ s.refreshTokens = s0.refreshTokens.put t ∧ s.journal = s0.journal ∧ s0.drawn ⊆ s.drawn

theorem saved_steady {t : RefreshToken} : Steady (Saved K t) := by
  rintro s s' hs ⟨s0, hK, htokens, hjournal, hdrawn⟩
  exact ⟨s0, hK, hs.refreshTokens.trans htokens, hs.journal.trans hjournal, fun _ hu => hs.drawn (hdrawn hu)⟩

/-- A save that no unique index refuses. -/
theorem PrismaRefreshTokenRepository.save_saves {t : RefreshToken} (hK : Steady K)
    (hunique : ∀ s, K s → ∀ r ∈ s.refreshTokens.rows, r.tokenHash = t.tokenHash → r.id = t.id) :
    Alone services i K (PrismaRefreshTokenRepository.save t) (fun _ => Saved K t) fun _ _ => False := by
  refine .await hK.passes (fun {s a v s'} h _ hx => ?_) fun {s a e s'} h ha hx => ?_
  · obtain ⟨-, rfl⟩ := exec_token_upsert hx
    exact ⟨s, h, rfl, rfl, List.Subset.refl _⟩
  · cases a with
    | fail e => cases ha.2
    | ok =>
      have hput : execRefreshToken i (.upsert t) s = (.ok (), { s with refreshTokens := s.refreshTokens.put t }) := by
        refine if_neg fun hany => ?_
        obtain ⟨r, hr, hother⟩ := List.any_eq_true.1 hany
        rw [Bool.and_eq_true, bne_iff_ne, beq_iff_eq] at hother
        exact hother.1 (hunique s h r hr hother.2)
      have hx : execRefreshToken i (.upsert t) s = (.error e, s') := Option.some.inj hx
      cases hput.symm.trans hx
    | _ => cases hx

/-! ### What the handlers do -/

/-- The rest of a refresh goes through. -/
theorem RefreshAccessTokenHandler.rotate_orderly (hinj : Function.Injective services.hashRefreshToken)
    {command : RefreshAccessTokenCommand} {t : RefreshToken} {user : User} (hlive : t.revokedAt = none)
    (howner : user.id = t.userId) :
    Alone services i (Stored services t) (RefreshAccessTokenHandler.rotate services command t user)
      (fun _ => InOrder services) fun _ _ => False := by
  unfold RefreshAccessTokenHandler.rotate
  refine .bind (generate_draws hinj stored_steady fun _ h => h.1) fun raw => ?_
  refine .bind (RefreshToken.issue_mints stored_steady fun _ h => h.1) fun next => ?_
  have hminted : Steady fun s => Stored services t s ∧ Minted services user.id (some t.family) raw next s :=
    stored_steady.and minted_steady
  refine Alone.quiet_await_bind hminted rfl rfl fun now => ?_
  refine .bind (PrismaRefreshTokenRepository.save_saves hminted fun s h r hr hhash => ?_) fun _ => ?_
  · rw [h.1.1.unique r hr t h.1.2 hhash]
    rfl
  refine .bind (PrismaRefreshTokenRepository.save_saves saved_steady ?_) fun _ => ?_
  · rintro s ⟨s0, ⟨⟨horder, ht⟩, hnext⟩, htokens, -⟩ r hr hhash
    rw [htokens, Table.mem_put] at hr
    rcases hr with rfl | ⟨hr, -⟩
    · exact absurd (hhash.trans hnext.hash) (hnext.drew.unused t ht)
    · exact absurd (hhash.trans hnext.hash) (hnext.drew.unused r hr)
  refine .mono (K := InOrder services)
    (Alone.quiet_await_bind inOrder_steady rfl rfl fun signed => .pure fun _ h => h) ?_ (fun _ _ h => h) fun _ _ h => h
  rintro s ⟨s1, ⟨s0, ⟨⟨horder, ht⟩, hnext⟩, htokens, hjournal, hdrawn⟩, htokens', hjournal', hdrawn'⟩
  have hrotated : Orderly services ((s0.refreshTokens.put (t.revoke now next.id)).put next) s0.drawn s0.journal := by
    refine Orderly.rotate horder ht hlive ?_ (Option.some_ne_none now) hnext.id.2.1 hnext.drew.drawn hnext.hash
      hnext.live hnext.last (hnext.known _ rfl) (hnext.owner.trans howner) fun r hr => ⟨hnext.id.2.2 r hr, ?_⟩
    · simp [RefreshToken.revoke, hnext.id.1]
    · rw [hnext.hash]
      exact hnext.drew.unused r hr
  unfold InOrder
  rw [htokens', htokens]
  exact hrotated.mono (fun _ hu => hdrawn' (hdrawn hu)) fun family => by rw [hjournal', hjournal]

/-- A login starts a family. -/
theorem LoginHandler.accept_upholds (hinj : Function.Injective services.hashRefreshToken) (command : LoginCommand)
    (user : User) :
    Upholds (scheduleOf services Calm) TimePasses i (InOrder services) (LoginHandler.accept services command user) := by
  have hsteady : Steady (InOrder services) := inOrder_steady
  unfold LoginHandler.accept
  refine Alone.quiet_await_bind hsteady rfl rfl fun loginAt => Alone.quiet_await_bind hsteady rfl rfl fun now => ?_
  refine Alone.quiet_bind hsteady (.await rfl) (Prog.returns_true _) (fun _ _ => ?_) fun _ _ h => h
  refine Alone.quiet_await_bind hsteady rfl rfl fun signed => ?_
  refine .bind ((generate_draws hinj hsteady fun _ h => h).mono (fun _ h => h) (fun _ _ h => h) fun _ _ => False.elim)
    fun raw => ?_
  refine .bind ((RefreshToken.issue_mints hsteady fun _ h => h).mono (fun _ h => h) (fun _ _ h => h)
    fun _ _ => False.elim) fun next => ?_
  refine .bind ((PrismaRefreshTokenRepository.save_saves (hsteady.and minted_steady) ?_).mono (fun _ h => h)
    (fun _ _ h => h) fun _ _ => False.elim) fun _ => ?_
  · intro s hs r hr hhash
    exact absurd (hhash.trans hs.2.hash) (hs.2.drew.unused r hr)
  refine .mono (K := InOrder services) ?_ ?_ (fun _ _ h => h) fun _ _ h => h
  · exact Alone.quiet_bind hsteady (publishAll_calls (fun _ => rfl) _) (Prog.returns_true _)
      (fun _ _ => .pure fun _ h => h) fun _ _ h => h
  rintro s ⟨s0, ⟨horder, hnext⟩, htokens, hjournal, hdrawn⟩
  obtain ⟨hfamily, hnew, hspared⟩ := hnext.fresh rfl
  have hstarted : Orderly services (s0.refreshTokens.put next) s0.drawn s0.journal := by
    refine Orderly.start horder hnext.id.2.1 hfamily hnext.drew.drawn hnext.hash hnext.live hnext.last
      (fun r hr => ⟨hnext.id.2.2 r hr, hnew r hr, ?_⟩) hspared
    rw [hnext.hash]
    exact hnext.drew.unused r hr
  unfold InOrder
  rw [htokens]
  exact hstarted.mono hdrawn fun family => by rw [hjournal]

theorem LoginHandler.execute_upholds (hinj : Function.Injective services.hashRefreshToken) (command : LoginCommand) :
    Upholds (scheduleOf services Calm) TimePasses i (InOrder services) (LoginHandler.execute services command) := by
  have hsteady : Steady (InOrder services) := inOrder_steady
  unfold LoginHandler.execute
  refine .ofExcept_bind (fun email _ => ?_) fun _ _ _ h => h
  refine Alone.quiet_bind hsteady (PrismaUserRepository.findByEmail_calls (fun _ => rfl) email) (Prog.returns_true _)
    (fun user _ => ?_) fun _ _ h => h
  cases user with
  | none => exact Alone.quiet_await_bind hsteady rfl rfl fun _ => .throw fun _ h => h
  | some user =>
    refine Alone.quiet_bind hsteady (User.assertCanAttemptLogin_calls (T := fun op => op.ofTokens = false) rfl user)
      (Prog.returns_true _) (fun user _ => ?_) fun _ _ h => h
    refine Alone.quiet_await_bind hsteady rfl rfl fun passwordMatches => ?_
    split
    · exact LoginHandler.accept_upholds hinj command user
    · unfold LoginHandler.refuse
      refine Alone.quiet_bind hsteady (User.recordFailedLogin_calls (T := fun op => op.ofTokens = false) rfl user _)
        (Prog.returns_true _) (fun user _ => ?_) fun _ _ h => h
      refine Alone.quiet_bind hsteady (.await rfl) (Prog.returns_true _) (fun _ _ => ?_) fun _ _ h => h
      exact Alone.quiet_bind hsteady (publishAll_calls (fun _ => rfl) _) (Prog.returns_true _)
        (fun _ _ => .throw fun _ h => h) fun _ _ h => h

/-- What has been found is stored. -/
theorem stored_of_find {tokenHash : String} {t : RefreshToken} {s : Store} (h : InOrder services s)
    (hfound : some t = s.refreshTokens.rows.find? fun t => t.tokenHash = tokenHash) : Stored services t s :=
  ⟨h, List.mem_of_find?_eq_some hfound.symm⟩

theorem LogoutHandler.execute_upholds (command : LogoutCommand) :
    Upholds (scheduleOf services Calm) TimePasses i (InOrder services) (LogoutHandler.execute services command) := by
  unfold LogoutHandler.execute
  refine Triple.bind ((PrismaRefreshTokenRepository.findByTokenHash_finds _).mono (fun _ h => h) (fun _ _ h => h)
    fun _ _ => False.elim) fun found => ?_
  cases found with
  | none => exact Triple.pure fun _ h => h.1
  | some t =>
    show Alone services i _ (if t.isRevoked = true then _ else _) _ _
    split
    · exact Triple.pure fun _ h => h.1
    · exact (PrismaRefreshTokenRepository.revokeFamily_revokes t).mono (fun s h => stored_of_find h.1 h.2)
        (fun _ _ h => h.1) fun _ _ => False.elim

theorem ChangePasswordHandler.execute_upholds (command : ChangePasswordCommand) :
    Upholds (scheduleOf services Calm) TimePasses i (InOrder services)
      (ChangePasswordHandler.execute services command) := by
  have hsteady : Steady (InOrder services) := inOrder_steady
  unfold ChangePasswordHandler.execute
  refine Alone.quiet_bind hsteady (PrismaUserRepository.findById_calls (fun _ => rfl) _) (Prog.returns_true _)
    (fun user _ => ?_) fun _ _ h => h
  cases user with
  | none => exact .throw fun _ h => h
  | some user =>
    refine Alone.quiet_await_bind hsteady rfl rfl fun currentMatches => ?_
    split
    · exact .throw fun _ h => h
    refine .ofExcept_bind (fun newPlainPassword _ => ?_) fun _ _ _ h => h
    refine Alone.quiet_await_bind hsteady rfl rfl fun newHash => ?_
    refine .ofExcept_bind (fun hashedPassword _ => ?_) fun _ _ _ h => h
    refine Alone.quiet_await_bind hsteady rfl rfl fun now => ?_
    refine Alone.quiet_bind hsteady (.await rfl) (Prog.returns_true _) (fun _ _ => ?_) fun _ _ h => h
    refine .bind (PrismaRefreshTokenRepository.revokeAllForUser_upholds _) fun _ => ?_
    exact Upholds.of_calls (publishAll_calls (T := fun op => op.ofTokens = false) (fun _ => rfl) _) hsteady.passes
      fun h hop _ hx => hsteady (exec_sameTokens hop hx) h

/-! ### What a refresh looks at -/

/-- The clock, as it was read. -/
def reading? : Event Op.Res Err Store → Option Nat
  | ⟨.dateNow, .ok now, _, _⟩ => some now
  | _ => none

abbrev readings (tr : List (Event Op.Res Err Store)) : List Nat := tr.filterMap reading?

def Op.readsClock : Op → Bool
  | .dateNow => true
  | _ => false

theorem no_readings {sys : System Op.Res Err Store Ans Nat} {env : Store → Store → Prop} {p : Prog Op.Res Err ε α}
    {s s' : Store} {tr : List (Event Op.Res Err Store)} {x : Except ε α} (h : Run sys env i p s tr x s')
    (hp : p.Calls fun op => op.readsClock = false) : readings tr = [] := by
  refine List.filterMap_eq_nil_iff.2 fun e he => ?_
  have hop := h.calls hp e he
  obtain ⟨op, r, s, s'⟩ := e
  cases op with
  | dateNow => cases hop
  | _ => rfl

/-- `assertCanAttemptLogin`, if the clock then says `now?`. -/
def User.mayLogIn (u : User) (now? : Option Nat) : Bool :=
  match u.status with
  | .ACTIVE | .PENDING_VERIFICATION => true
  | .LOCKED => u.lockedUntil.all fun lockedUntil => now?.any fun now => lockedUntil ≤ now
  | .SUSPENDED | .DEACTIVATED => false

/-- Only the clock may have moved, and what a look at a token adds to the journal is there. -/
structure Looked (s s' : Store) : Prop where
  tokens : s'.refreshTokens = s.refreshTokens
  users : s'.users = s.users
  revoked : ∀ family, .revoked family ∈ s'.journal ↔ .revoked family ∈ s.journal
  drawn : s.drawn ⊆ s'.drawn

theorem Looked.refl (s : Store) : Looked s s := ⟨rfl, rfl, fun _ => Iff.rfl, List.Subset.refl _⟩

theorem Looked.trans {s s' s'' : Store} (h : Looked s s') (h' : Looked s' s'') : Looked s s'' :=
  ⟨h'.tokens.trans h.tokens, h'.users.trans h.users, fun family => (h'.revoked family).trans (h.revoked family),
    fun _ hu => h'.drawn (h.drawn hu)⟩

theorem Looked.inOrder {s s' : Store} (h : Looked s s') (hs : InOrder services s) : InOrder services s' := by
  unfold InOrder
  rw [h.tokens]
  exact Orderly.mono hs h.drawn h.revoked

def Op.looks : Op → Bool
  | .refreshToken (.findUnique _) | .user (.findById _) | .dateNow => true
  | _ => false

theorem looked_of_exec {s s' : Store} {a : Ans} {op : Op} {r : Except Err op.Res} (hop : op.looks = true)
    (h : exec services i a op s = some (r, s')) : Looked s s' := by
  rcases r with e | v
  · exact exec_error h ▸ .refl s
  cases op with
  | refreshToken q =>
    cases q with
    | findUnique tokenHash =>
      obtain ⟨-, rfl⟩ := exec_token_find h
      exact ⟨rfl, rfl, fun _ => presented_revoked, List.Subset.refl _⟩
    | _ => cases hop
  | user q =>
    cases q with
    | findById id =>
      obtain ⟨-, rfl⟩ := exec_user_findById h
      exact ⟨rfl, rfl, fun _ => Iff.rfl, List.Subset.refl _⟩
    | _ => cases hop
  | dateNow => exact (exec_dateNow h).2 ▸ .refl s
  | _ => cases hop

theorem looked_of_timePasses {s s' : Store} (h : TimePasses s s') : Looked s s' := by
  obtain ⟨ms, rfl⟩ := h
  exact ⟨rfl, rfl, fun _ => Iff.rfl, List.Subset.refl _⟩

theorem looked_of_run {p : Prog Op.Res Err ε α} {s s' : Store} {tr : List (Event Op.Res Err Store)} {x : Except ε α}
    (h : Run (scheduleOf services Calm) TimePasses i p s tr x s') (hp : p.Calls fun op => op.looks = true) :
    Looked s s' :=
  h.keeps hp Looked.refl Looked.trans looked_of_timePasses fun hop hx => looked_of_exec hop hx

/-- A look at the clock. -/
theorem dateNow_bind {f : Nat → Handler α} {s s' : Store} {tr : List (Event Op.Res Err Store)} {x : Except Err α}
    (h : Run (scheduleOf services Calm) TimePasses i (Prog.await Op.dateNow >>= f) s tr x s') :
    ∃ now s1 rest, Looked s s1 ∧ readings tr = now :: readings rest ∧
      Run (scheduleOf services Calm) TimePasses i (f now) s1 rest x s' := by
  obtain ⟨s1, a, r, s2, rest, hs, ha, hx, rfl, ⟨now, rfl, hrest⟩ | ⟨e, rfl, -⟩⟩ := h.await_bind
  · exact ⟨now, s2, rest, (looked_of_timePasses hs).trans (looked_of_exec rfl hx), rfl, hrest⟩
  · exact absurd hx (not_refused ha.2 rfl)

theorem User.assertCanAttemptLogin_run {u : User} {s s' : Store} {tr : List (Event Op.Res Err Store)}
    {x : Except Err User} (h : Run (scheduleOf services Calm) TimePasses i u.assertCanAttemptLogin s tr x s')
    (rest : List (Event Op.Res Err Store)) :
    (∃ u', x = .ok u') ↔ u.mayLogIn (readings (tr ++ rest)).head? = true := by
  unfold User.assertCanAttemptLogin User.assertLockExpired at h
  unfold User.mayLogIn
  cases hstatus : u.status with
  | LOCKED =>
    rw [if_pos hstatus] at h
    cases huntil : u.lockedUntil with
    | none =>
      rw [huntil] at h
      obtain ⟨now, s1, rest, -, -, -, rfl, -⟩ := dateNow_bind h
      exact iff_of_true ⟨_, rfl⟩ rfl
    | some lockedUntil =>
      rw [huntil] at h
      have hhead : ∀ {now : Nat} {before after : List (Event Op.Res Err Store)},
          readings before = now :: readings after → ∀ more, (readings (before ++ more)).head? = some now := by
        intro now before after hread more
        rw [readings, List.filterMap_append, ← readings, hread]
        rfl
      rcases h.bind with ⟨_, s1, tr1, tr2, h1, h2, rfl⟩ | ⟨e, rfl, h1⟩
      · obtain ⟨now, s2, after, -, hread, h1⟩ := dateNow_bind h1
        obtain ⟨now', s3, -, -, -, -, rfl, -⟩ := dateNow_bind h2
        rw [List.append_assoc, hhead hread]
        split at h1
        · cases h1.2.1
        · rename_i hle
          exact iff_of_true ⟨_, rfl⟩ (decide_eq_true (not_lt.1 hle))
      · obtain ⟨now, s2, after, -, hread, h1⟩ := dateNow_bind h1
        rw [hhead hread]
        split at h1
        · rename_i hlt
          refine iff_of_false not_ok ?_
          simpa using hlt
        · cases h1.2.1
  | ACTIVE =>
    rw [hstatus] at h
    obtain ⟨-, rfl, -⟩ := h
    exact iff_of_true ⟨_, rfl⟩ rfl
  | PENDING_VERIFICATION =>
    rw [hstatus] at h
    obtain ⟨-, rfl, -⟩ := h
    exact iff_of_true ⟨_, rfl⟩ rfl
  | SUSPENDED =>
    rw [hstatus] at h
    obtain ⟨-, rfl, -⟩ := h
    exact iff_of_false not_ok Bool.false_ne_true
  | DEACTIVATED =>
    rw [hstatus] at h
    obtain ⟨-, rfl, -⟩ := h
    exact iff_of_false not_ok Bool.false_ne_true

theorem PrismaUserRepository.findById_run {id : String} {s s' : Store} {tr : List (Event Op.Res Err Store)}
    {x : Except Err (Option User)}
    (h : Run (scheduleOf services Calm) TimePasses i (PrismaUserRepository.findById services id) s tr x s')
    (user : User) :
    x = .ok (some user) ↔ ∃ row, s.users.find? id = some row ∧ UserMapper.toDomain services row = .ok user := by
  obtain ⟨s1, a, r, s2, rest, ⟨ms, rfl⟩, ha, hx, -, ⟨found, rfl, h⟩ | ⟨e, rfl, -⟩⟩ := h.await_bind
  · obtain ⟨hfound, rfl⟩ := exec_user_findById hx
    have hfound : s.users.find? id = found := hfound.symm
    rw [hfound]
    cases found with
    | none =>
      obtain ⟨-, rfl, -⟩ := h
      exact iff_of_false (fun h => nomatch h) fun ⟨_, h, _⟩ => nomatch h
    | some row =>
      rcases h.ofExcept_bind with ⟨u, hu, -, rfl, -⟩ | ⟨e, he, -, rfl, -⟩
      · simp [hu]
      · simp [he]
  · exact absurd hx (not_refused ha.2 rfl)

/-- `raw` can be exchanged, if the clock is read so. -/
def Acceptable (services : Services) (s : Store) (raw : String) (readings : List Nat) : Prop :=
  ∃ t ∈ s.refreshTokens.rows, t.tokenHash = services.hashRefreshToken raw ∧
    (tokensOf s.refreshTokens t.family).getLast? = some t ∧ .revoked t.family ∉ s.journal ∧
    (∃ now ∈ readings.head?, now < t.expiresAt) ∧
    ∃ row user, s.users.find? t.userId = some row ∧ UserMapper.toDomain services row = .ok user ∧
      user.mayLogIn readings.tail.head? = true

/-- ... only if its token is live. -/
theorem Acceptable.live {s : Store} {raw : String} {readings : List Nat} (h : Acceptable services s raw readings)
    (hs : InOrder services s) {t : RefreshToken} (ht : t ∈ s.refreshTokens.rows)
    (hhash : t.tokenHash = services.hashRefreshToken raw) : t.revokedAt = none := by
  obtain ⟨t', ht', hhash', hlast, hspared, -⟩ := h
  obtain rfl := hs.unique t' ht' t ht (hhash'.trans hhash.symm)
  by_contra hrevoked
  exact hspared ((hs.revoked t'.family t' hlast).1 hrevoked)

/-- Looking a token up. -/
theorem PrismaRefreshTokenRepository.findByTokenHash_bind {tokenHash : String} {f : Option RefreshToken → Handler α}
    {s s' : Store} {tr : List (Event Op.Res Err Store)} {x : Except Err α} (hs : InOrder services s)
    (h : Run (scheduleOf services Calm) TimePasses i (PrismaRefreshTokenRepository.findByTokenHash tokenHash >>= f)
      s tr x s') :
    ∃ s1 rest, Looked s s1 ∧ readings tr = readings rest ∧
      Run (scheduleOf services Calm) TimePasses i (f (s.refreshTokens.rows.find? fun t => t.tokenHash = tokenHash))
        s1 rest x s' := by
  rcases h.bind with ⟨found, s1, tr1, tr2, h1, h2, rfl⟩ | ⟨e, rfl, h1⟩
  · have hlooked := looked_of_run h1 (.bind (.await rfl) fun _ => trivial)
    have hread := no_readings h1 (.bind (.await rfl) fun _ => trivial)
    obtain ⟨-, rfl⟩ := (PrismaRefreshTokenRepository.findByTokenHash_finds _).returns hs h1
    rw [hlooked.tokens] at h2
    refine ⟨s1, tr2, hlooked, ?_, h2⟩
    rw [readings, List.filterMap_append, ← readings, hread, List.nil_append]
  · exact ((PrismaRefreshTokenRepository.findByTokenHash_finds _).throws hs h1).elim

theorem find?_of_unique {s : Store} (hs : InOrder services s) {t : RefreshToken} (ht : t ∈ s.refreshTokens.rows) :
    (s.refreshTokens.rows.find? fun t' => t'.tokenHash = t.tokenHash) = some t := by
  cases hfind : s.refreshTokens.rows.find? fun t' => t'.tokenHash = t.tokenHash with
  | none => exact absurd (decide_eq_true rfl) (List.find?_eq_none.1 hfind t ht)
  | some t' =>
    have hhash : t'.tokenHash = t.tokenHash := by simpa using List.find?_some hfind
    rw [hs.unique t' (List.mem_of_find?_eq_some hfind) t ht hhash]

/-- A token that has been revoked gives its family away, and is refused. -/
theorem RefreshAccessTokenHandler.revoked_refused {command : RefreshAccessTokenCommand} {s s' : Store}
    {tr : List (Event Op.Res Err Store)} {x : Except Err AuthResponseDto} (hs : InOrder services s)
    (h : Run (scheduleOf services Calm) TimePasses i (RefreshAccessTokenHandler.execute services command) s tr x s')
    {t : RefreshToken} (ht : t ∈ s.refreshTokens.rows)
    (hhash : t.tokenHash = services.hashRefreshToken command.refreshToken)
    (hrevoked : t.revokedAt ≠ none) :
    (∃ e, x = .error e) ∧ InOrder services s' ∧ .revoked t.family ∈ s'.journal := by
  obtain ⟨s1, rest, hlooked, -, h⟩ := PrismaRefreshTokenRepository.findByTokenHash_bind hs h
  rw [← hhash, find?_of_unique hs ht] at h
  have hrevoked : t.isRevoked = true := Option.isSome_iff_ne_none.2 hrevoked
  simp only [hrevoked, if_true] at h
  have hstored : Stored services t s1 := ⟨hlooked.inOrder hs, hlooked.tokens ▸ ht⟩
  rcases h.bind with ⟨_, s2, tr1, tr2, h1, h2, -⟩ | ⟨e, rfl, h1⟩
  · obtain ⟨-, rfl, rfl⟩ := h2
    exact ⟨⟨_, rfl⟩, (PrismaRefreshTokenRepository.revokeFamily_revokes t).returns hstored h1⟩
  · exact ((PrismaRefreshTokenRepository.revokeFamily_revokes t).throws hstored h1).elim

/-- A live one is exchanged if it has not expired and its user may log in. -/
theorem RefreshAccessTokenHandler.live_exchanged (hinj : Function.Injective services.hashRefreshToken)
    {command : RefreshAccessTokenCommand} {s s' : Store} {tr : List (Event Op.Res Err Store)}
    {x : Except Err AuthResponseDto} (hs : InOrder services s)
    (h : Run (scheduleOf services Calm) TimePasses i (RefreshAccessTokenHandler.execute services command) s tr x s')
    {t : RefreshToken} (ht : t ∈ s.refreshTokens.rows)
    (hhash : t.tokenHash = services.hashRefreshToken command.refreshToken)
    (hlive : t.revokedAt = none) :
    InOrder services s' ∧ ((∃ dto, x = .ok dto) ↔ (∃ now ∈ (readings tr).head?, now < t.expiresAt) ∧
      ∃ row user, s.users.find? t.userId = some row ∧ UserMapper.toDomain services row = .ok user ∧
        user.mayLogIn (readings tr).tail.head? = true) := by
  obtain ⟨s1, rest, hlooked, hread, h⟩ := PrismaRefreshTokenRepository.findByTokenHash_bind hs h
  rw [← hhash, find?_of_unique hs ht] at h
  have hlive' : t.isRevoked = false := by simp [RefreshToken.isRevoked, hlive]
  simp only [hlive', Bool.false_eq_true, if_false] at h
  obtain ⟨now, s2, rest2, hlooked', hread2, h⟩ := dateNow_bind h
  have hlooked := hlooked.trans hlooked'
  rw [hread, hread2, List.head?_cons, List.tail_cons]
  split at h
  · rename_i hexpired
    obtain ⟨-, rfl, rfl⟩ := h
    refine ⟨hlooked.inOrder hs, iff_of_false not_ok ?_⟩
    rintro ⟨⟨_, ⟨⟩, hlt⟩, -⟩
    exact absurd (of_decide_eq_true hexpired) (not_le.2 hlt)
  rename_i hexpired
  have hlt : now < t.expiresAt := not_le.1 fun hle => hexpired (decide_eq_true hle)
  have hcalls : (PrismaUserRepository.findById services t.userId).Calls fun op => op.looks = true :=
    PrismaUserRepository.findById_calls (fun _ => rfl) t.userId
  rcases h.bind with ⟨found, s3, tr3, tr4, h1, h2, rfl⟩ | ⟨e, rfl, h1⟩
  · have hfound := PrismaUserRepository.findById_run h1
    rw [hlooked.users] at hfound
    have hread3 := no_readings h1 (PrismaUserRepository.findById_calls (fun _ => rfl) t.userId)
    have hlooked := hlooked.trans (looked_of_run h1 hcalls)
    rw [readings, List.filterMap_append, ← readings, hread3, List.nil_append]
    cases found with
    | none =>
      obtain ⟨-, rfl, rfl⟩ := h2
      refine ⟨hlooked.inOrder hs, iff_of_false not_ok ?_⟩
      rintro ⟨-, row, user, huser⟩
      cases (hfound user).2 ⟨row, huser.1, huser.2.1⟩
    | some user =>
      obtain ⟨row, hrow, huser⟩ := (hfound user).1 rfl
      have hlogin : User.assertCanAttemptLogin user |>.Calls fun op => op.looks = true :=
        User.assertCanAttemptLogin_calls (T := fun op => op.looks = true) rfl user
      rcases h2.bind with ⟨user', s4, tr5, tr6, h3, h4, rfl⟩ | ⟨e, rfl, h3⟩
      · have hlooked := hlooked.trans (looked_of_run h3 hlogin)
        have howner : user'.id = t.userId :=
          (h3.returns user.assertCanAttemptLogin_id).trans
            ((UserMapper.toDomain_id huser).trans (Table.key_of_find? hrow))
        rcases (RefreshAccessTokenHandler.rotate_orderly hinj hlive howner).run h4
          ⟨hlooked.inOrder hs, hlooked.tokens ▸ ht⟩ with ⟨dto, rfl, horder⟩ | ⟨_, _, hno⟩
        · refine ⟨horder, iff_of_true ⟨dto, rfl⟩ ⟨⟨now, rfl, hlt⟩, row, user, hrow, huser, ?_⟩⟩
          exact (User.assertCanAttemptLogin_run h3 tr6).1 ⟨user', rfl⟩
        · exact hno.elim
      · refine ⟨(hlooked.trans (looked_of_run h3 hlogin)).inOrder hs, iff_of_false not_ok ?_⟩
        rintro ⟨-, row', user', hrow', huser', hmay⟩
        obtain rfl : row = row' := Option.some.inj (hrow.symm.trans hrow')
        obtain rfl : user = user' := Except.ok.inj (huser.symm.trans huser')
        have hrun := User.assertCanAttemptLogin_run h3 []
        rw [List.append_nil] at hrun
        exact absurd (hrun.2 hmay) not_ok
  · refine ⟨(hlooked.trans (looked_of_run h1 hcalls)).inOrder hs, iff_of_false not_ok ?_⟩
    rintro ⟨-, row, user, hrow, huser, -⟩
    cases (PrismaUserRepository.findById_run h1 user).2 ⟨row, hlooked.users ▸ hrow, huser⟩

/-- **What a refresh does.** -/
theorem RefreshAccessTokenHandler.execute_run (hinj : Function.Injective services.hashRefreshToken)
    {command : RefreshAccessTokenCommand} {s s' : Store} {tr : List (Event Op.Res Err Store)}
    {x : Except Err AuthResponseDto} (hs : InOrder services s)
    (h : Run (scheduleOf services Calm) TimePasses i (RefreshAccessTokenHandler.execute services command) s tr x s') :
    InOrder services s' ∧ ((∃ dto, x = .ok dto) ↔ Acceptable services s command.refreshToken (readings tr)) := by
  by_cases hknown : ∃ t ∈ s.refreshTokens.rows, t.tokenHash = services.hashRefreshToken command.refreshToken
  · obtain ⟨t, ht, hhash⟩ := hknown
    by_cases hlive : t.revokedAt = none
    · obtain ⟨horder, hiff⟩ := RefreshAccessTokenHandler.live_exchanged hinj hs h ht hhash hlive
      obtain ⟨⟨before, hlast⟩, hspared⟩ := hs.last_of_live ht hlive
      refine ⟨horder, hiff.trans ⟨fun hok => ⟨t, ht, hhash, ?_, hspared, hok⟩, fun hok => ?_⟩⟩
      · rw [hlast, List.getLast?_concat]
      · obtain ⟨t', ht', hhash', -, -, hrest⟩ := hok
        obtain rfl := hs.unique t' ht' t ht (hhash'.trans hhash.symm)
        exact hrest
    · obtain ⟨⟨e, rfl⟩, horder, -⟩ := RefreshAccessTokenHandler.revoked_refused hs h ht hhash hlive
      exact ⟨horder, iff_of_false not_ok fun hok => hlive (hok.live hs ht hhash)⟩
  · obtain ⟨s1, rest, hlooked, -, h⟩ := PrismaRefreshTokenRepository.findByTokenHash_bind hs h
    have hnone :
        (s.refreshTokens.rows.find? fun t => t.tokenHash = services.hashRefreshToken command.refreshToken) = none :=
      List.find?_eq_none.2 fun t ht hhash => hknown ⟨t, ht, of_decide_eq_true hhash⟩
    rw [hnone] at h
    obtain ⟨-, rfl, rfl⟩ := h
    refine ⟨hlooked.inOrder hs, iff_of_false not_ok ?_⟩
    rintro ⟨t, ht, hhash, -⟩
    exact hknown ⟨t, ht, hhash⟩

/-- **Every request leaves the tokens in order.** -/
theorem SessionRequest.upholds (hinj : Function.Injective services.hashRefreshToken) (request : SessionRequest) :
    Upholds (scheduleOf services Calm) TimePasses i (InOrder services) (request.program services) := by
  cases request with
  | login command => exact (LoginHandler.execute_upholds hinj command).bind fun _ => .pure
  | refresh command =>
    refine Upholds.bind ⟨fun hs h => ?_, fun hs h => ?_⟩ fun _ => .pure
    · exact (RefreshAccessTokenHandler.execute_run hinj hs h).1
    · exact (RefreshAccessTokenHandler.execute_run hinj hs h).1
  | logout command => exact (LogoutHandler.execute_upholds command).bind fun _ => .pure
  | changePassword command => exact (ChangePasswordHandler.execute_upholds command).bind fun _ => .pure

/-! ## Every sequence of requests -/

/-- The journal only grows. -/
theorem exec_journal {s s' : Store} {a : Ans} {op : Op} {r : Except Err op.Res}
    (h : exec services i a op s = some (r, s')) : s.journal ⊆ s'.journal := by
  rcases r with e | v
  · exact exec_error h ▸ List.Subset.refl _
  cases op with
  | refreshToken q =>
    cases q with
    | findUnique tokenHash =>
      obtain ⟨-, rfl⟩ := exec_token_find h
      exact List.subset_append_left _ _
    | upsert data =>
      obtain ⟨-, rfl⟩ := exec_token_upsert h
      exact List.Subset.refl _
    | updateMany filter revokedAt =>
      obtain rfl := exec_token_updateMany h
      exact List.subset_append_left _ _
  | _ => exact (exec_sameTokens rfl h).journal ▸ List.Subset.refl _

/-- A family that has been revoked stays so. -/
theorem Serves.journal {s s' : Store}
    (h : Relation.ReflTransGen (Serves (scheduleOf services Calm) TimePasses (SessionRequest.program services)) s s') :
    s.journal ⊆ s'.journal := by
  induction h with
  | refl => exact List.Subset.refl _
  | tail _ hserves ih =>
    obtain ⟨i, request, tr, x, hrun⟩ := hserves
    refine List.Subset.trans ih (hrun.keeps (R := fun s s' => s.journal ⊆ s'.journal) (T := fun _ => True) ?_
      (fun _ => List.Subset.refl _) List.Subset.trans (fun ⟨_, h⟩ => h ▸ List.Subset.refl _) fun _ hx =>
        exec_journal hx)
    exact Prog.calls_true _

end

variable (services : Services)

/-- Requests, one after another, in the calm. -/
abbrev Later : Store → Store → Prop :=
  Relation.ReflTransGen (Serves (scheduleOf services Calm) TimePasses (SessionRequest.program services))

/-- A refresh, and what comes of it. -/
abbrev Refreshes (s : Store) (raw : String) (tr : List (Event Op.Res Err Store))
    (x : Except Err AuthResponseDto) (s' : Store) : Prop :=
  ∃ i ipAddress userAgent, Run (scheduleOf services Calm) TimePasses i
    (RefreshAccessTokenHandler.execute services ⟨raw, ipAddress, userAgent⟩) s tr x s'

/-- **The tokens of a family form a chain, and only its end is good for anything**, after any sequence of requests.
Whoever presents an earlier token ends the family. -/
theorem families_are_chains (hinj : Function.Injective services.hashRefreshToken) {start s : Store}
    (htokens : start.refreshTokens = .empty) (hjournal : start.journal = []) (h : Later services start s) :
    (∀ family, Linked (tokensOf s.refreshTokens family)) ∧
    (∀ {raw tr x s'}, Refreshes services s raw tr x s' →
      ((∃ dto, x = .ok dto) ↔ Acceptable services s raw (readings tr))) ∧
    ∀ {raw tr x s' t}, Refreshes services s raw tr x s' → t ∈ s.refreshTokens.rows →
      t.tokenHash = services.hashRefreshToken raw → (tokensOf s.refreshTokens t.family).getLast? ≠ some t →
      ∀ {raw' tr' x' later s'' t'}, Later services s' later → t' ∈ later.refreshTokens.rows →
        t'.family = t.family →
        t'.tokenHash = services.hashRefreshToken raw' → Refreshes services later raw' tr' x' s'' →
        ∃ e, x' = .error e := by
  have hstart : InOrder services start := by
    unfold InOrder
    rw [htokens, hjournal]
    exact .empty _
  have hs : InOrder services s := Serves.invariant h (fun i request => request.upholds hinj) hstart
  refine ⟨hs.linked, ?_, ?_⟩
  · rintro raw tr x s' ⟨i, ipAddress, userAgent, hrun⟩
    exact (RefreshAccessTokenHandler.execute_run hinj hs hrun).2
  · rintro raw tr x s' t ⟨i, ipAddress, userAgent, hrun⟩ ht hhash hearlier raw' tr' x' later s'' t' hlater
      ht' hfamily
      hhash' ⟨j, ipAddress', userAgent', hrun'⟩
    obtain ⟨-, hs', hgone⟩ :=
      RefreshAccessTokenHandler.revoked_refused hs hrun ht hhash (hs.revoked_of_earlier ht hearlier)
    have hlaterOrder : InOrder services later := Serves.invariant hlater (fun i request => request.upholds hinj) hs'
    have hrevoked : t'.revokedAt ≠ none := fun hlive =>
      (hlaterOrder.last_of_live ht' hlive).2 (hfamily ▸ Serves.journal hlater hgone)
    exact (RefreshAccessTokenHandler.revoked_refused hlaterOrder hrun' ht' hhash' hrevoked).1

/-! ## A login and a refresh -/

/-- One user, logged out. -/
def sampleLoggedOut : Store := { sampleStore with refreshTokens := .empty, drawn := [] }

def sampleLogin : LoginCommand := ⟨"ada@kudi.ng", "correct horse", none, none⟩

/-- The answers to a login that goes through. -/
def sampleLoginAnswers : List Ans :=
  [.ok, .ok, .ok, .ok, .ok, .signed ⟨"jwt", 900⟩, .token "raw-0", .ok, .uuid "token-0", .uuid "family", .ok,
    .ok, .ok]

theorem sampleServices_injective : Function.Injective sampleServices.hashRefreshToken := fun _ _ h =>
  String.append_right_inj "#" |>.1 h

/-- Ada's first refresh. -/
def sampleExchange : Store → Option (List (Event Op.Res Err Store) × Except Err AuthResponseDto × Store) :=
  playRun (scheduleOf sampleServices Calm) 0 (sampleRefresh "raw-1" "token-1")
    (RefreshAccessTokenHandler.execute sampleServices ⟨"raw-0", none, none⟩)

/-- Ada logs in, and exchanges the token that she gets. -/
theorem families_are_chains_sample : ∃ s tr x s', Later sampleServices sampleLoggedOut s ∧
    Refreshes sampleServices s "raw-0" tr x s' ∧ x = .ok (sampleSession "raw-1") ∧
    Acceptable sampleServices s "raw-0" (readings tr) ∧ Linked (tokensOf s.refreshTokens "family") := by
  have hat : ∀ s, TimePasses s s := fun s => ⟨0, rfl⟩
  have hplay : (playRun (scheduleOf sampleServices Calm) 0 sampleLoginAnswers
      ((SessionRequest.login sampleLogin).program sampleServices) sampleLoggedOut).any fun r =>
        (sampleExchange r.2.2).any (fun r' => r'.2.1 = .ok (sampleSession "raw-1")) = true := by
    decide +kernel
  obtain ⟨tr, x, s, hlogin, hseen⟩ := playRun_seen (Q := fun _ _ s =>
    (sampleExchange s).any (fun r' => r'.2.1 = .ok (sampleSession "raw-1")) = true) hplay
  obtain ⟨tr', x', s', hrefresh, rfl⟩ := playRun_seen (Q := fun _ x _ => x = .ok (sampleSession "raw-1")) hseen
  have hlater : Later sampleServices sampleLoggedOut s :=
    .single ⟨0, .login sampleLogin, tr, x, run_of_play hat hlogin⟩
  have hrun : Refreshes sampleServices s "raw-0" tr' (.ok (sampleSession "raw-1")) s' :=
    ⟨0, none, none, run_of_play hat hrefresh⟩
  have hend := families_are_chains sampleServices sampleServices_injective rfl rfl hlater
  exact ⟨s, tr', _, s', hlater, hrun, rfl, (hend.2.1 hrun).1 ⟨_, rfl⟩, hend.1 "family"⟩

end Kudi.Identity
