import KudiCore.Concurrency.TransferLimits

/-!
# Transfers within their limits

| here | there |
| --- | --- |
| `Ready`       | what `assertWithinLimits` leaves behind when it does not throw |
| `Funded`      | a transfer that has been initiated after it |

What follows the check up to the stamp on the transfer takes time and changes nothing else that the limits depend on;
the transfer counts from its second save on, or from the commit of the transaction that inserts it.
-/

namespace Kudi

open Interleave Protocol KycTransferLimitCheckerService

/-! ## The guard -/

/-- `run` keeps what its calls and the protected operation keep. -/
theorem IdempotencyGuardService.run_keeps {α : Type} {P : Protocol Op.Res Err} {i : PId} {K : P.State → Prop}
    {T : Op → Prop} (hT : ∀ st op, K st → T op → P.ok i st op ∧ ∀ r, P.yields i st op r →
      K (P.next i st op r))
    (hkey : ∀ q, T (.idempotencyKey q)) (hnow : T .dateNow) (hmark : ∀ m, T (.mark m)) {o : Operation α}
    (he : P.Keeps i K o.execute) (hr : ∀ resourceId, P.Keeps i K (o.rehydrate resourceId)) (userId scope : String)
    (key : Option String) (fuel : Nat) : P.Keeps i K (run userId scope key fuel o) := by
  have one : ∀ {op : Op} {β : Type} {f : op.Res → Handler β}, T op → (∀ x, P.Keeps i K (f x)) →
      P.Keeps i K (Prog.await op >>= f) := fun hop hf => .await_bind (fun st hK => hT st _ hK hop) hf
  unfold run
  split
  · exact .bind he fun _ => .pure _
  · exact .bind he fun _ => .pure _
  · refine .bind (.of_calls hT (PrismaIdempotencyKeyRepository.tryAcquire_calls hkey hnow _ fuel))
      fun acquisition => ?_
    cases acquisition with
    | COMPLETED resourceId => exact hr resourceId
    | IN_PROGRESS => exact .throw _
    | ACQUIRED =>
      refine .tryCatch (.bind ?_ fun _ => one (hkey _) fun _ => .pure _) fun _ => one (hkey _) fun _ => .throw _
      exact one (hmark _) fun _ => .bind (.tryCatch he fun _ => one (hmark _) fun _ => .throw _) fun _ =>
        one (hmark _) fun _ => .pure _

/-! ## Calls that only take time -/

/-- Calls that save nothing and tell nothing of the transfers. -/
def Passing : Op → Prop
  | .account _ (.findUnique _) | .transfer .prisma (.findUnique _) => True
  | .account .. | .transfer .. | .transaction _ => False
  | _ => True

/-- What passing calls may change of the protocol state. -/
structure Spending.Later (st st' : Spending) : Prop where
  staged : st'.staged = st.staged
  summed : st'.summed = st.summed
  found : st'.found = st.found
  now : st.now ≤ st'.now

theorem Spending.Later.refl (st : Spending) : st.Later st := ⟨rfl, rfl, rfl, le_rfl⟩

theorem Spending.Later.trans {st st' st'' : Spending} (h : st.Later st') (h' : st'.Later st'') : st.Later st'' :=
  ⟨h'.staged.trans h.staged, h'.summed.trans h.summed, h'.found.trans h.found, h.now.trans h'.now⟩

/-- No transaction of the program has inserted a transfer. -/
def Unstaged (st : Spending) : Prop := st.staged = none

section
variable {db0 : Db} {sends : PId → String → Prop} {i : PId} {ε α β : Type} {st st' : Spending}

theorem passing_call (st : Spending) {op : Op} (h : Passing op) : (limitProtocol db0 sends).ok i st op ∧
    ∀ r, (limitProtocol db0 sends).yields i st op r → st.Later ((limitProtocol db0 sends).next i st op r) := by
  cases op with
  | account c q =>
    cases q with
    | findUnique id => exact ⟨trivial, fun _ _ => .refl st⟩
    | _ => exact absurd h not_false
  | transfer c q =>
    cases c with
    | tx => exact absurd h not_false
    | prisma =>
      cases q with
      | findUnique id => exact ⟨trivial, fun _ _ => .refl st⟩
      | _ => exact absurd h not_false
  | transaction q => exact absurd h not_false
  | dateNow =>
    refine ⟨trivial, fun r hy => ?_⟩
    rcases r with e | now
    · exact .refl st
    · exact ⟨rfl, rfl, rfl, hy⟩
  | _ => exact ⟨trivial, fun _ _ => .refl st⟩

theorem passing_unstaged (st : Spending) (op : Op) (hst : Unstaged st) (h : Passing op) :
    (limitProtocol db0 sends).ok i st op ∧
      ∀ r, (limitProtocol db0 sends).yields i st op r → Unstaged ((limitProtocol db0 sends).next i st op r) := by
  exact ⟨(passing_call st h).1, fun r hy => ((passing_call st h).2 r hy).staged.trans hst⟩

theorem passing_keeps {p : Program ε α} (hp : p.Calls Passing) : (limitProtocol db0 sends).Keeps i Unstaged p :=
  .of_calls passing_unstaged hp

theorem passing_bind {p : Program ε α} {f : α → Program ε β} {R : α → Prop}
    {Q : Spending → Except ε β → Prop}
    (hp : p.Calls Passing) (hr : p.Returns R)
    (hok : ∀ st' a, st.Later st' → R a → (limitProtocol db0 sends).Obeys i Q (f a) st')
    (herr : ∀ st' e, st.Later st' → Q st' (.error e)) : (limitProtocol db0 sends).Obeys i Q (p >>= f) st := by
  have hlater : (limitProtocol db0 sends).Obeys i (fun st' x => st.Later st' ∧ ∀ a, x = .ok a → R a) p st :=
    Obeys.of_calls_returns (P := limitProtocol db0 sends) (K := fun st' => st.Later st')
      (fun st' op hst' hop => ⟨(passing_call st' hop).1,
        fun r hy => hst'.trans ((passing_call st' hop).2 r hy)⟩) hp hr
      (.refl st)
  exact Obeys.bind (P := limitProtocol db0 sends) hlater (fun st' a h => hok st' a h.1 (h.2 a rfl))
    fun st' e h => herr st' e h.1

/-! ## The check -/

/-- A transfer of `amount` from `source` that is made from now on is within the limits. -/
structure Ready (db0 : Db) (sends : String → Prop) (st : Spending) (source : String) (amount : Int) : Prop where
  staged : st.staged = none
  sends : sends source
  affords : Affords db0 st.summed source amount st.now

theorem Affords.later {summed : Option Summed} {source : String} {amount : Int} {now now' : Nat}
    (h : Affords db0 summed source amount now) (hnow : now ≤ now') : Affords db0 summed source amount now' := by
  obtain ⟨row, hrow, limits, hlimits, heach, hdaily⟩ := h
  refine ⟨row, hrow, limits, hlimits, heach, fun cap hcap => ?_⟩
  obtain ⟨sum, hsum, hsource, hsince, htotal⟩ := hdaily cap hcap
  exact ⟨sum, hsum, hsource, by omega, htotal⟩

namespace KycTransferLimitCheckerService

theorem checkLimit_ok {limit : Option Money} {limitType : String} {tier : KycTier} {amount : Money}
    (h : checkLimit limit limitType tier amount = .ok ()) :
    ∀ cap ∈ limit, amount.minorUnits ≤ cap.minorUnits := by
  intro cap hcap
  obtain rfl : limit = some cap := hcap
  unfold checkLimit at h
  cases hb : cap.isGreaterThanOrEqualTo amount with
  | error e => simp [hb, bind, Except.bind] at h
  | ok b =>
    cases b with
    | true => exact of_decide_eq_true (Money.isGreaterThanOrEqualTo_ok.1 hb).2.symm
    | false => simp [hb, bind, Except.bind, throw, throwThe, MonadExceptOf.throw] at h

theorem resolveTier_obeys (userId : String) :
    (limitProtocol db0 sends).Obeys i
      (fun st' x => st' = st ∧ ∀ tier, x = .ok tier → tier = tierHeld db0.kycProfiles userId)
      (KycTierResolverService.resolveTier userId .prisma) st := by
  refine Obeys.await_bind (P := limitProtocol db0 sends) trivial (fun profile hprofile => ⟨rfl, fun tier h => ?_⟩)
    fun _ _ => ⟨rfl, fun _ h => by cases h⟩
  have hprofile : profile = db0.kycProfiles.find? userId := hprofile
  cases h
  rw [tierHeld, hprofile]

theorem findByTier_obeys (tier : KycTier) (currency : Currency) :
    (limitProtocol db0 sends).Obeys i
      (fun st' x => st' = st ∧ ∀ limits, x = .ok limits → limitsOf db0.kycTierLimits tier currency = .ok limits)
      (PrismaKycTierLimitRepository.findByTier tier currency .prisma) st := by
  refine Obeys.await_bind (P := limitProtocol db0 sends) trivial (fun record hrecord => ?_)
    fun _ _ => ⟨rfl, fun _ h => by cases h⟩
  have hrecord : record = db0.kycTierLimits.find? tier := hrecord
  cases record <;> refine .ofExcept ⟨rfl, fun limits hl => ?_⟩ <;> rw [limitsOf, ← hrecord] <;> exact hl

/-- **A transfer that passes the check is within its account's limits from then on.** -/
theorem assertWithinLimits_obeys (row : AccountRecord) {userId source : String} {amount : Money}
    (hrow : row ∈ db0.accounts.find? source) (huser : row.userId = userId)
    (hcurrency : row.currency = amount.currency)
    (hmine : sends i source) (hst : Unstaged st) :
    (limitProtocol db0 sends).Obeys i
      (fun st' x => Unstaged st' ∧ (x = .ok () → Ready db0 (sends i) st' source amount.minorUnits))
      (assertWithinLimits userId source amount) st := by
  refine Obeys.bind (P := limitProtocol db0 sends) (resolveTier_obeys userId) (fun st1 tier h1 => ?_)
    fun _ _ h => ⟨h.1 ▸ hst, fun h => by cases h⟩
  obtain ⟨rfl, htier⟩ := h1
  obtain rfl := htier tier rfl
  refine Obeys.bind (P := limitProtocol db0 sends) (findByTier_obeys _ _) (fun st2 limits h2 => ?_)
    fun _ _ h => ⟨h.1 ▸ hst, fun h => by cases h⟩
  obtain ⟨rfl, hlimits⟩ := h2
  have hlimits : transferLimitsOf db0 row = .ok limits := by
    rw [transferLimitsOf, huser, hcurrency]
    exact hlimits limits rfl
  refine Obeys.ofExcept_bind (P := limitProtocol db0 sends) (fun _ heach => ?_) fun _ _ =>
    ⟨hst, fun h => by cases h⟩
  have heach : ∀ cap ∈ limits.perTransactionLimit, (amount.minorUnits : Int) ≤ cap.minorUnits :=
    fun cap hcap => by
    exact_mod_cast checkLimit_ok heach cap hcap
  cases hdaily : limits.dailyTransferLimit with
  | none =>
    refine ⟨hst, fun _ => ⟨hst, hmine, row, hrow, limits, hlimits, heach, fun cap hcap => ?_⟩⟩
    rw [hdaily] at hcap
    cases hcap
  | some daily =>
    refine Obeys.await_bind (P := limitProtocol db0 sends) trivial (fun now _ => ?_)
      fun _ _ => ⟨hst, fun h => by cases h⟩
    -- The window ends at the clock that has just been read.
    have hsum : (limitProtocol db0 sends).Obeys i
        (fun st' x => Unstaged st' ∧ st'.now = now ∧ ∀ m, x = .ok m →
          st'.summed = some ⟨source, (now : Int) - rollingWindowMs, m.minorUnits⟩)
        (PrismaTransferRepository.sumSourceAmountSince source ((now : Int) - rollingWindowMs) amount.currency)
        { st2 with now := now } := by
      refine Obeys.await_bind (P := limitProtocol db0 sends) ⟨rfl, hst, hmine, rfl, ?_⟩ (fun sum _ => ?_)
        fun _ _ => ⟨hst, rfl, fun _ h => by cases h⟩
      · show (now : Int) - rollingWindowMs + rollingWindowMs ≤ now
        omega
      · refine .ofExcept ⟨hst, rfl, fun m hm => ?_⟩
        obtain ⟨hnonneg, rfl⟩ := Money.fromMinorUnits_ok.1 hm
        show some _ = some _
        rw [Int.toNat_of_nonneg hnonneg]
    refine Obeys.bind (P := limitProtocol db0 sends) hsum (fun st3 total h3 => ?_)
      fun _ _ h => ⟨h.1, fun h => by cases h⟩
    obtain ⟨hst3, hnow3, hsummed⟩ := h3
    refine Obeys.ofExcept_bind (P := limitProtocol db0 sends) (fun projected hadd => ?_)
      fun _ _ => ⟨hst3, fun h => by cases h⟩
    refine .ofExcept ⟨hst3, fun hcheck => ⟨hst3, hmine, row, hrow, limits, hlimits, heach, fun cap hcap => ?_⟩⟩
    refine ⟨_, hsummed total rfl, rfl, ?_, ?_⟩
    · show (now : Int) - rollingWindowMs + rollingWindowMs ≤ st3.now
      rw [hnow3]
      omega
    · obtain ⟨-, rfl⟩ := Money.add_ok.1 hadd
      have hle : total.minorUnits + amount.minorUnits ≤ cap.minorUnits :=
        checkLimit_ok hcheck cap (by rw [← hdaily]; exact hcap)
      show (total.minorUnits : Int) + amount.minorUnits ≤ cap.minorUnits
      exact_mod_cast hle

end KycTransferLimitCheckerService

/-! ## The accounts -/

theorem Owned.credited {a a' : Account} {amount : Money} {reference : String}
    (h : Owned db0 (AccountMapper.toPersistence a)) (hc : a.credit amount reference = .ok a') :
    Owned db0 (AccountMapper.toPersistence a') := by
  obtain ⟨-, -, -, rfl⟩ := Account.credit_ok.1 hc
  exact h

theorem Owned.debited {a a' : Account} {amount : Money} {reference : String} (hab : a.balance.currency = a.currency)
    (h : Owned db0 (AccountMapper.toPersistence a)) (hd : a.debit amount reference = .ok a') :
    Owned db0 (AccountMapper.toPersistence a') := by
  obtain ⟨-, -, -, rfl⟩ := (Account.debit_ok hab).1 hd
  exact h

theorem updateAccount_obeys {a : Account} {c : Client} (h : Owned db0 (AccountMapper.toPersistence a)) :
    (limitProtocol db0 sends).Obeys i (fun st' _ => st' = st) (PrismaAccountRepository.update a c) st := by
  refine Obeys.await_bind (P := limitProtocol db0 sends) h (fun n _ => ?_) fun _ _ => rfl
  split <;> rfl

theorem saveAccount_obeys {a : Account} (hv : a.version ≠ 0) (h : Owned db0 (AccountMapper.toPersistence a)) :
    (limitProtocol db0 sends).Obeys i (fun st' _ => st' = st) (PrismaAccountRepository.save a) st := by
  unfold PrismaAccountRepository.save
  rw [if_neg hv]
  exact updateAccount_obeys h

theorem findAccount_obeys (id : String) :
    (limitProtocol db0 sends).Obeys i
      (fun st' x => st' = st ∧ ∀ o, x = .ok o → ∀ a, o = some a → ∃ row, row.id = id ∧ Owned db0 row ∧
        AccountMapper.toDomain row = .ok a)
      (PrismaAccountRepository.findById id) st := by
  refine Obeys.await_bind (P := limitProtocol db0 sends) trivial (fun record hrecord => ?_)
    fun _ _ => ⟨rfl, fun o ho => by cases ho⟩
  cases record with
  | none =>
    refine ⟨rfl, fun o ho a ha => ?_⟩
    cases ho
    cases ha
  | some row =>
    refine Obeys.ofExcept_bind (P := limitProtocol db0 sends) (x := AccountMapper.toDomain row) (fun a hl => ?_)
      fun _ _ => ⟨rfl, fun o ho => by cases ho⟩
    refine ⟨rfl, fun o ho a' ha => ?_⟩
    cases ho
    cases ha
    exact ⟨row, hrecord.1, hrecord.2, hl⟩

theorem compensate_keeps (t : Transfer) (totalDebit : Except Err Money) (narration : String) :
    (limitProtocol db0 sends).Keeps i Unstaged (compensate t totalDebit narration) := by
  intro st hst
  refine Obeys.bind (P := limitProtocol db0 sends) (findAccount_obeys _) (fun st1 account h1 => ?_)
    fun _ _ h => h.1 ▸ hst
  obtain ⟨rfl, haccount⟩ := h1
  cases account with
  | none => exact hst
  | some account =>
    obtain ⟨row, -, howned, hl⟩ := haccount _ rfl account rfl
    refine Obeys.ofExcept_bind (P := limitProtocol db0 sends) (fun totalDebit _ => ?_) fun _ _ => hst
    refine Obeys.ofExcept_bind (P := limitProtocol db0 sends) (fun credited hc => ?_) fun _ _ => hst
    have hsaved : Owned db0 (AccountMapper.toPersistence credited) :=
      Owned.credited ((AccountMapper.toDomain_ok hl).1.symm ▸ howned) hc
    have hv : credited.version ≠ 0 := by
      obtain ⟨-, -, -, rfl⟩ := Account.credit_ok.1 hc
      exact Nat.succ_ne_zero _
    refine Obeys.bind (P := limitProtocol db0 sends) (saveAccount_obeys hv hsaved) (fun st2 _ h2 => ?_)
      fun _ _ h => h ▸ hst
    obtain rfl := h2
    exact Keeps.bind (P := limitProtocol db0 sends)
      (passing_keeps (postTransferJournal_calls trivial (fun _ => trivial) _ _ _)) (fun _ => .pure _) st2 hst

/-! ## The transfers -/

theorem Spending.saved_unstaged {data : TransferRecord} (h : Unstaged st) : Unstaged (st.saved data) := by
  unfold Spending.saved
  split <;> exact h

/-- A transfer that does not count may always be saved. -/
theorem Spends.uncounted {t : Transfer} (hstatus : t.status ≠ .PENDING)
    (hcounted : (TransferMapper.toPersistence t).counted = false) :
    Spends db0 (sends i) st (TransferMapper.toPersistence t) where
  nonneg := Int.natCast_nonneg _
  untraced h := absurd h hstatus
  counted h := by
    rw [hcounted] at h
    cases h

theorem saveTransfer_spends {t : Transfer} (hst : Unstaged st)
    (h : Spends db0 (sends i) st (TransferMapper.toPersistence t))
    (hstatus : t.version ≠ 0 → t.status ≠ .PENDING) :
    (limitProtocol db0 sends).Obeys i (fun st' _ => Unstaged st') (PrismaTransferRepository.save t) st := by
  unfold PrismaTransferRepository.save
  split
  · refine Obeys.await (P := limitProtocol db0 sends) h fun r _ => ?_
    rcases r with e | x
    · exact hst
    · exact Spending.saved_unstaged hst
  · rename_i hv
    refine Obeys.await_bind (P := limitProtocol db0 sends) ⟨(Nat.succ_pred_eq_of_ne_zero hv).symm, hstatus hv,
      .inl h⟩
      (fun n _ => ?_) fun _ _ => hst
    by_cases hn : n = 0
    · subst hn
      refine Obeys.await_bind (P := limitProtocol db0 sends) trivial (fun existing _ => ?_) fun _ _ => hst
      cases existing with
      | none =>
        refine Obeys.await (P := limitProtocol db0 sends) h fun r _ => ?_
        rcases r with e | x
        · exact hst
        · exact Spending.saved_unstaged hst
      | some row => exact hst
    · simp only [if_neg hn]
      simp only [limitProtocol, if_neg hn]
      exact Spending.saved_unstaged hst

/-- `t` was initiated after the check, for the amount that was checked. -/
structure Funded (db0 : Db) (sends : String → Prop) (st : Spending) (t : Transfer) : Prop where
  staged : st.staged = none
  sends : sends t.sourceAccountId
  affords : Affords db0 st.summed t.sourceAccountId t.amount.minorUnits t.createdAt

theorem Funded.later {t : Transfer} (h : Funded db0 (sends i) st t) (hst : st.Later st') :
    Funded db0 (sends i) st' t :=
  ⟨hst.staged.trans h.staged, h.sends, hst.summed ▸ h.affords⟩

theorem Funded.spends {t : Transfer} (h : Funded db0 (sends i) st t)
    (hstatus : t.status = .PENDING → t.providerReference = none) :
    Spends db0 (sends i) st (TransferMapper.toPersistence t) where
  nonneg := Int.natCast_nonneg _
  untraced := hstatus
  counted _ := ⟨h.staged, h.sends, h.affords⟩

/-- The clock and the random values drawn for the transfer that `initiate` makes of them. -/
theorem draw_obeys_limit {initiate : Nat → TransferReference → String → Transfer} {source : String}
    {amount : Money}
    (hready : Ready db0 (sends i) st source amount.minorUnits)
    (hinit : ∀ now reference id, (initiate now reference id).sourceAccountId = source ∧
      (initiate now reference id).amount = amount ∧ (initiate now reference id).createdAt = now) :
    (limitProtocol db0 sends).Obeys i
      (fun st' x => Unstaged st' ∧ ∀ t, x = .ok t → Funded db0 (sends i) st' t ∧
        ∃ now reference id, t = initiate now reference id)
      (draw initiate) st := by
  refine Obeys.await_bind (P := limitProtocol db0 sends) trivial (fun now hnow => ?_)
    fun _ _ => ⟨hready.staged, fun _ h => by cases h⟩
  refine passing_bind (.await trivial) (Prog.returns_true _) (fun st1 id hst1 _ => ?_)
    fun st1 _ hst1 => ⟨hst1.staged.trans hready.staged, fun _ h => by cases h⟩
  refine passing_bind (.await trivial) (Prog.returns_true _) (fun st2 reference hst2 _ => ?_)
    fun st2 _ hst2 => ⟨(hst1.trans hst2).staged.trans hready.staged, fun _ h => by cases h⟩
  have hlater := hst1.trans hst2
  refine ⟨hlater.staged.trans hready.staged, fun t ht => ?_⟩
  cases ht
  obtain ⟨hsource, hamount, hcreated⟩ := hinit now reference id
  refine ⟨⟨hlater.staged.trans hready.staged, hsource ▸ hready.sends, ?_⟩, now, reference, id, rfl⟩
  rw [hsource, hamount, hcreated, hlater.summed]
  exact hready.affords.later hnow

/-- A save that leaves no transaction open, of a transfer that has been given up. -/
theorem saveUncounted_keeps {t : Transfer} (hstatus : t.status = .REVERSED ∨ t.status = .FAILED) :
    (limitProtocol db0 sends).Keeps i Unstaged (PrismaTransferRepository.save t) := by
  have hpending : t.status ≠ .PENDING := by
    rcases hstatus with h | h <;> rw [h] <;> nofun
  have hcounted : (TransferMapper.toPersistence t).counted = false := by
    rcases hstatus with h | h <;> simp [TransferRecord.counted, TransferMapper.toPersistence, h]
  exact fun st hst => saveTransfer_spends hst (.uncounted hpending hcounted) fun _ => hpending

theorem publishAll_unstaged (events : List DomainEvent) :
    (limitProtocol db0 sends).Keeps i Unstaged (publishAll events) :=
  passing_keeps (publishAll_calls (fun _ => trivial) events)

theorem postTransferJournal_passing (t : Transfer) (narration : String) (legs : List LedgerPostingLeg) :
    (postTransferJournal t narration legs).Calls Passing :=
  postTransferJournal_calls trivial (fun _ => trivial) t narration legs

/-- The transfer is still of the same amount, from the same account and of the same time. -/
structure SameOrder (t t' : Transfer) : Prop where
  id : t'.id = t.id
  sourceAccountId : t'.sourceAccountId = t.sourceAccountId
  amount : t'.amount = t.amount
  createdAt : t'.createdAt = t.createdAt
  version : t'.version = t.version + 1

theorem SameOrder.of_markSuccessful {t t' : Transfer} (h : t.markSuccessful = .ok t') :
    t.status.isTerminal = false ∧ SameOrder t t' ∧ t'.status = .SUCCESSFUL := by
  by_cases hopen : t.status.isTerminal = false
  · rw [Transfer.markSuccessful_of hopen] at h
    cases h
    exact ⟨hopen, ⟨rfl, rfl, rfl, rfl, rfl⟩, rfl⟩
  · simp [Transfer.markSuccessful, Transfer.assertNotTerminal, hopen, bind, Except.bind] at h

theorem SameOrder.of_markProcessing {t t' : Transfer} {ref : String} (h : t.markProcessing ref = .ok t') :
    SameOrder t t' ∧ t'.status = .PROCESSING := by
  by_cases hopen : t.status.isTerminal = false
  · rw [Transfer.markProcessing_of hopen] at h
    cases h
    exact ⟨⟨rfl, rfl, rfl, rfl, rfl⟩, rfl⟩
  · simp [Transfer.markProcessing, Transfer.assertNotTerminal, hopen, bind, Except.bind] at h

theorem Funded.same {t t' : Transfer} (h : Funded db0 (sends i) st t) (hsame : SameOrder t t') :
    Funded db0 (sends i) st t' := by
  refine ⟨h.staged, hsame.sourceAccountId ▸ h.sends, ?_⟩
  rw [hsame.sourceAccountId, hsame.amount, hsame.createdAt]
  exact h.affords

/-! ### The external transfers -/

namespace InitiateExternalTransferHandler

theorem hold_obeys_limit (command : InitiateExternalTransferCommand) (hmine : sends i command.sourceAccountId)
    (hst : Unstaged st) :
    (limitProtocol db0 sends).Obeys i
      (fun st' x => Unstaged st' ∧ ∀ held, x = .ok held →
        Ready db0 (sends i) st' command.sourceAccountId held.2.2.1.minorUnits)
      (hold command) st := by
  have failed : ∀ {st' : Spending} {e : Err}, Unstaged st' → Unstaged st' ∧ ∀ held, (Except.error e : Except Err
      (Account × ExternalRecipient × Money × Money × Money)) = .ok held →
      Ready db0 (sends i) st' command.sourceAccountId held.2.2.1.minorUnits := fun h => ⟨h, fun _ h => by cases h⟩
  refine Obeys.bind (P := limitProtocol db0 sends) (findAccount_obeys _) (fun st1 account h1 => ?_)
    fun _ _ h => failed (h.1 ▸ hst)
  obtain ⟨rfl, haccount⟩ := h1
  cases account with
  | none => exact failed hst
  | some account =>
    obtain ⟨row, hid, howned, hl⟩ := haccount _ rfl account rfl
    obtain ⟨hrow, hab, -⟩ := AccountMapper.toDomain_ok hl
    obtain ⟨row0, hrow0, huser0, hcurrency0⟩ := howned
    have hrowUser : account.userId = row.userId := congrArg AccountRecord.userId hrow
    have hrowCurrency : account.currency = row.currency := congrArg AccountRecord.currency hrow
    dsimp only
    split
    · exact failed hst
    · rename_i huser
      simp only [ne_eq, not_not] at huser
      refine Obeys.ofExcept_bind (P := limitProtocol db0 sends) (fun amount hamount => ?_) fun _ _ => failed hst
      refine Obeys.bind (P := limitProtocol db0 sends)
        (KycTransferLimitCheckerService.assertWithinLimits_obeys row0 (hid ▸ hrow0)
          (huser0.symm.trans (hrowUser.symm.trans huser))
          (hcurrency0.symm.trans (hrowCurrency.symm.trans (Money.fromDecimalString_currency hamount).symm)) hmine hst)
        (fun st2 _ h2 => ?_) fun _ _ h => failed h.1
      have hready := h2.2 rfl
      refine Obeys.ofExcept_bind (P := limitProtocol db0 sends) (fun fee _ => ?_) fun _ _ => failed h2.1
      refine Obeys.ofExcept_bind (P := limitProtocol db0 sends) (fun totalDebit _ => ?_) fun _ _ => failed h2.1
      refine Obeys.ofExcept_bind (P := limitProtocol db0 sends) (fun recipient _ => ?_) fun _ _ => failed h2.1
      refine Obeys.ofExcept_bind (P := limitProtocol db0 sends) (fun debited hd => ?_) fun _ _ => failed h2.1
      have hv : debited.version ≠ 0 := by
        obtain ⟨-, -, -, rfl⟩ := (Account.debit_ok hab).1 hd
        exact Nat.succ_ne_zero _
      have hsaved : Owned db0 (AccountMapper.toPersistence debited) :=
        Owned.debited hab (hrow.symm ▸ ⟨row0, hrow0, huser0, hcurrency0⟩) hd
      refine Obeys.bind (P := limitProtocol db0 sends) (saveAccount_obeys hv hsaved) (fun st3 _ h3 => ?_)
        fun _ _ h => failed (h ▸ h2.1)
      obtain rfl := h3
      refine ⟨h2.1, fun held hheld => ?_⟩
      cases hheld
      exact hready

/-- The first save: the transfer does not count yet. -/
theorem savePending_obeys {t : Transfer} (hfunded : Funded db0 (sends i) st t) (hv : t.version = 0)
    (hstatus : t.status = .PENDING) (href : t.providerReference = none) :
    (limitProtocol db0 sends).Obeys i (fun st' _ => st' = st) (PrismaTransferRepository.save t) st := by
  have hcounted : (TransferMapper.toPersistence t).counted = false := by
    simp [TransferRecord.counted, TransferMapper.toPersistence, hstatus]
  unfold PrismaTransferRepository.save
  rw [if_pos hv]
  refine Obeys.await (P := limitProtocol db0 sends) (hfunded.spends fun _ => href) fun r _ => ?_
  rcases r with e | x
  · rfl
  · show st.saved (TransferMapper.toPersistence t) = st
    rw [Spending.saved, hcounted]
    rfl

theorem record_obeys_limit (command : InitiateExternalTransferCommand) (sourceAccount : Account)
    (recipient : ExternalRecipient) (amount fee totalDebit : Money)
    (hready : Ready db0 (sends i) st command.sourceAccountId amount.minorUnits) :
    (limitProtocol db0 sends).Obeys i
      (fun st' x => Unstaged st' ∧ ∀ t, x = .ok t → Funded db0 (sends i) st' t)
      (record command sourceAccount recipient amount fee totalDebit) st := by
  refine Obeys.bind (P := limitProtocol db0 sends) (draw_obeys_limit hready fun _ _ _ => ⟨rfl, rfl, rfl⟩)
    (fun st1 t h1 => ?_)
    fun _ _ h => ⟨h.1, fun _ h => by cases h⟩
  obtain ⟨hfunded, now, reference, id, ht⟩ := h1.2 t rfl
  refine Obeys.bind (P := limitProtocol db0 sends) (savePending_obeys hfunded (ht ▸ rfl) (ht ▸ rfl) (ht ▸ rfl))
    (fun st2 _ h2 => ?_) fun _ _ h => ⟨h ▸ h1.1, fun _ h => by cases h⟩
  obtain rfl := h2
  refine passing_bind (postTransferJournal_passing _ _ _) (Prog.returns_true _) (fun st3 _ hst3 _ => ?_)
    fun st3 _ hst3 => ⟨hst3.staged.trans h1.1, fun _ h => by cases h⟩
  refine ⟨hst3.staged.trans h1.1, fun t' h => ?_⟩
  cases h
  exact hfunded.later hst3

theorem during_passing_bind {σ : Type} {a : σ} {p : Handler α} {f : α → Program (Err × σ) β}
    {Q : Spending → Except (Err × σ) β → Prop} (hp : p.Calls Passing)
    (hok : ∀ st' b, st.Later st' → (limitProtocol db0 sends).Obeys i Q (f b) st')
    (herr : ∀ st' e, st.Later st' → Q st' (.error e)) : (limitProtocol db0 sends).Obeys i Q (during a p >>= f) st :=
  passing_bind (calls_during hp) (Prog.returns_true _) (fun st' b h _ => hok st' b h) herr

theorem during_ofExcept_limit {σ : Type} {a : σ} {x : Except Err α} {f : α → Program (Err × σ) β}
    {Q : Spending → Except (Err × σ) β → Prop}
    (hok : ∀ b, x = .ok b → (limitProtocol db0 sends).Obeys i Q (f b) st)
    (herr : ∀ e, Q st (.error e)) : (limitProtocol db0 sends).Obeys i Q (during a (.ofExcept x) >>= f) st := by
  cases x with
  | ok b => exact hok b rfl
  | error e => exact herr _

/-- A transfer marked as accepted is still the one that was checked. -/
theorem markAccepted_obeys_limit (command : InitiateExternalTransferCommand) (totalDebit : Money) {t : Transfer}
    (payoutResult : PayoutInitiationResult) (hfunded : Funded db0 (sends i) st t) :
    (limitProtocol db0 sends).Obeys i
      (fun st' x => Unstaged st' ∧ ∀ marked, x = .ok marked → Funded db0 (sends i) st' marked ∧
        marked.status ≠ .PENDING)
      (markAccepted command totalDebit t payoutResult) st := by
  unfold markAccepted
  split
  · refine during_ofExcept_limit (fun settled hsettled => ?_) fun _ => ⟨hfunded.staged, fun _ h => by cases h⟩
    obtain ⟨-, hsame, hstatus⟩ := SameOrder.of_markSuccessful hsettled
    refine during_passing_bind (postTransferJournal_passing _ _ _) (fun st1 _ hst1 => ?_)
      fun st1 _ hst1 => ⟨hst1.staged.trans hfunded.staged, fun _ h => by cases h⟩
    refine ⟨hst1.staged.trans hfunded.staged, fun marked h => ?_⟩
    cases h
    exact ⟨(hfunded.same hsame).later hst1, by rw [hstatus]; nofun⟩
  · refine Obeys.mapError (P := limitProtocol db0 sends) (.ofExcept ⟨hfunded.staged, fun marked h => ?_⟩)
    cases hmark : t.markProcessing payoutResult.providerReference with
    | error e =>
      rw [hmark] at h
      cases h
    | ok t' =>
      rw [hmark] at h
      cases h
      obtain ⟨hsame, hstatus⟩ := SameOrder.of_markProcessing hmark
      exact ⟨hfunded.same hsame, by rw [hstatus]; nofun⟩

theorem accepted_obeys_limit (command : InitiateExternalTransferCommand) (totalDebit : Money)
    (events : List DomainEvent) {t : Transfer} (payoutResult : PayoutInitiationResult)
    (hfunded : Funded db0 (sends i) st t) :
    (limitProtocol db0 sends).Obeys i (fun st' _ => Unstaged st')
      (accepted command totalDebit events t payoutResult) st := by
  refine Obeys.bind (P := limitProtocol db0 sends) (markAccepted_obeys_limit command totalDebit payoutResult hfunded)
    (fun st1 marked h1 => ?_) fun _ _ h => h.1
  obtain ⟨hmarked, hstatus⟩ := h1.2 marked rfl
  refine Obeys.bind (P := limitProtocol db0 sends) (R := fun st' _ => Unstaged st')
    (Obeys.mapError (P := limitProtocol db0 sends) (saveTransfer_spends hmarked.staged
      (hmarked.spends fun h => absurd h hstatus) fun _ => hstatus)) (fun st2 _ h2 => ?_) fun _ _ h => h
  exact Keeps.bind (P := limitProtocol db0 sends)
    (passing_keeps (calls_during (publishAll_calls (fun _ => trivial) _))) (fun _ => .pure _) st2 h2

theorem reverse_keeps (command : InitiateExternalTransferCommand) (totalDebit : Money) (events : List DomainEvent)
    (payoutError : Err) (t : Transfer) :
    (limitProtocol db0 sends).Keeps i Unstaged (reverse command totalDebit events payoutError t : Handler α) :=
  .bind (compensate_keeps _ _ _) fun _ => .ofExcept_bind fun _ ht =>
    .bind (saveUncounted_keeps (.inl (Transfer.markReversed_ok ht).2.2.2.2)) fun _ =>
      .bind (publishAll_unstaged _) fun _ => .throw _

theorem payOut_obeys_limit (command : InitiateExternalTransferCommand) (recipient : ExternalRecipient)
    (totalDebit : Money) (events : List DomainEvent) {t : Transfer} (hfunded : Funded db0 (sends i) st t) :
    (limitProtocol db0 sends).Obeys i (fun st' _ => Unstaged st')
      (payOut command recipient totalDebit events t) st := by
  refine Obeys.tryCatch (P := limitProtocol db0 sends) (R := fun st' _ => Unstaged st') ?_ (fun _ _ h => h)
    fun st' thrown h => reverse_keeps _ _ _ _ _ st' h
  exact during_passing_bind (FlutterwavePayoutProvider.initiatePayout_calls (fun _ => trivial) _ _ _ _)
    (fun st1 result hst1 => accepted_obeys_limit command totalDebit events result (hfunded.later hst1))
    fun st1 _ hst1 => hst1.staged.trans hfunded.staged

/-- **An external transfer counts only after the check, for what was checked.** -/
theorem execute_keeps (fuel : Nat) (command : InitiateExternalTransferCommand)
    (hmine : sends i command.sourceAccountId) :
    (limitProtocol db0 sends).Keeps i Unstaged (execute fuel command) := by
  refine IdempotencyGuardService.run_keeps (P := limitProtocol db0 sends) passing_unstaged (fun _ => trivial) trivial
    (fun _ => trivial) (fun st hst => ?_)
    (fun _ => passing_keeps (rehydrateTransfer_calls (fun _ => trivial) _)) _ _ _ _
  refine Obeys.bind (P := limitProtocol db0 sends) (hold_obeys_limit command hmine hst) (fun st1 held h1 => ?_)
    fun _ _ h => h.1
  refine Obeys.bind (P := limitProtocol db0 sends) (record_obeys_limit command _ _ _ _ _ (h1.2 held rfl))
    (fun st2 t h2 => ?_) fun _ _ h => h.1
  have hpulled : Funded db0 (sends i) st2 t.pullDomainEvents.2 :=
    ⟨(h2.2 t rfl).staged, (h2.2 t rfl).sends, (h2.2 t rfl).affords⟩
  exact Obeys.bind (P := limitProtocol db0 sends) (payOut_obeys_limit command _ _ _ hpulled) (fun _ _ h => h)
    fun _ _ h => h

end InitiateExternalTransferHandler

/-! ### The news from the provider -/

theorem TransferMapper.toDomain_createdAt {r : TransferRecord} {t : Transfer} (h : TransferMapper.toDomain r = .ok t) :
    t.createdAt = r.createdAt := by
  unfold TransferMapper.toDomain at h
  cases hrecipient : TransferMapper.recipientOf r with
  | error e => simp [hrecipient, bind, Except.bind] at h
  | ok recipient =>
    cases hreference : TransferReference.create r.reference with
    | error e => simp [hrecipient, hreference, bind, Except.bind] at h
    | ok reference =>
      cases hamount : Money.fromMinorUnits r.amountMinorUnits r.currency with
      | error e => simp [hrecipient, hreference, hamount, bind, Except.bind] at h
      | ok amount =>
        cases hfee : Money.fromMinorUnits r.feeMinorUnits r.currency with
        | error e => simp [hrecipient, hreference, hamount, hfee, bind, Except.bind] at h
        | ok fee =>
          simp only [hrecipient, hreference, hamount, hfee, bind, Except.bind, pure, Except.pure, Except.ok.injEq] at h
          exact h ▸ rfl

namespace ConfirmExternalTransferHandler

theorem find_obeys_limit (ref : String) (hst : Unstaged st) :
    (limitProtocol db0 sends).Obeys i
      (fun st' x => Unstaged st' ∧ ∀ o, x = .ok o → ∀ t, o = some t →
        ∃ r ∈ st'.found, r.status ≠ .PENDING ∧ TransferMapper.toDomain r = .ok t)
      (PrismaTransferRepository.findByProviderReference ref) st := by
  refine Obeys.await_bind (P := limitProtocol db0 sends) trivial (fun found hfound => ?_)
    fun _ _ => ⟨hst, fun o ho => by cases ho⟩
  cases found with
  | none =>
    refine ⟨hst, fun o ho t ht => ?_⟩
    cases ho
    cases ht
  | some row =>
    refine Obeys.ofExcept_bind (P := limitProtocol db0 sends) (x := TransferMapper.toDomain row) (fun t ht => ?_)
      fun _ _ => ⟨hst, fun o ho => by cases ho⟩
    refine ⟨hst, fun o ho t' ht' => ?_⟩
    cases ho
    cases ht'
    exact ⟨row, List.mem_cons_self, hfound, ht⟩

/-- A transfer that counted goes on counting for the same. -/
theorem saveSettled_obeys {r : TransferRecord} {t t' : Transfer} (hst : Unstaged st) (hmem : r ∈ st.found)
    (hstatus : r.status ≠ .PENDING) (hr : TransferMapper.toDomain r = .ok t) (ht : t.markSuccessful = .ok t') :
    (limitProtocol db0 sends).Obeys i (fun st' _ => Unstaged st') (PrismaTransferRepository.save t') st := by
  obtain ⟨hopen, hsame, hsuccess⟩ := SameOrder.of_markSuccessful ht
  have hloads := TransferMapper.toDomain_ok hr
  have hversion : t'.version = r.version + 1 := hsame.version.trans (congrArg (· + 1) hloads.version)
  have hid : t'.id = r.id := hsame.id.trans hloads.id
  have hcounted : r.counted = true := by
    rw [hloads.status] at hopen
    unfold TransferRecord.counted
    cases hs : r.status <;> rw [hs] at hopen hstatus <;> first | rfl | exact absurd rfl hstatus | cases hopen
  have hspending : SameSpending r (TransferMapper.toPersistence t') := by
    refine ⟨hid, hsame.sourceAccountId.trans hloads.sourceAccountId, ?_,
      hsame.createdAt.trans (TransferMapper.toDomain_createdAt hr), hcounted⟩
    show (t'.amount.minorUnits : Int) = r.amountMinorUnits
    rw [hsame.amount]
    exact (TransferMapper.toDomain_amounts hr).1
  have hpending : t'.status ≠ .PENDING := by
    rw [hsuccess]
    nofun
  have hv : t'.version ≠ 0 := by omega
  unfold PrismaTransferRepository.save
  rw [if_neg hv]
  refine Obeys.await_bind (P := limitProtocol db0 sends) ⟨(Nat.succ_pred_eq_of_ne_zero hv).symm, hpending,
    .inr ⟨hst, r, hmem, ?_, hspending⟩⟩ (fun n _ => ?_) fun _ _ => hst
  · show t'.version - 1 = r.version
    omega
  · by_cases hn : n = 0
    · subst hn
      refine Obeys.await_bind (P := limitProtocol db0 sends) trivial (fun existing hy => ?_) fun _ _ => hst
      cases existing with
      | none => exact absurd hid.symm (hy r hmem)
      | some row => exact hst
    · simp only [if_neg hn]
      simp only [limitProtocol, if_neg hn]
      exact Spending.saved_unstaged hst

theorem execute_keeps (command : ConfirmExternalTransferCommand) :
    (limitProtocol db0 sends).Keeps i Unstaged (execute command) := by
  intro st hst
  refine Obeys.bind (P := limitProtocol db0 sends) (find_obeys_limit _ hst) (fun st1 found h1 => ?_) fun _ _ h => h.1
  cases found with
  | none => exact h1.1
  | some transfer =>
    obtain ⟨r, hmem, hstatus, hr⟩ := h1.2 _ rfl transfer rfl
    dsimp only
    split
    · exact h1.1
    · split
      · refine Obeys.ofExcept_bind (P := limitProtocol db0 sends) (fun settled ht => ?_) fun _ _ => h1.1
        refine Obeys.bind (P := limitProtocol db0 sends) (saveSettled_obeys h1.1 hmem hstatus hr ht)
          (fun st2 _ h2 => ?_) fun _ _ h => h
        exact Keeps.ofExcept_bind (P := limitProtocol db0 sends) (fun _ _ =>
          .bind (passing_keeps (postTransferJournal_passing _ _ _)) fun _ => publishAll_unstaged _) st2 h2
      · exact Keeps.bind (P := limitProtocol db0 sends) (compensate_keeps _ _ _) (fun _ => .ofExcept_bind fun _ ht =>
          .bind (saveUncounted_keeps (.inl (Transfer.markReversed_ok ht).2.2.2.2))
            fun _ => publishAll_unstaged _) st1 h1.1

end ConfirmExternalTransferHandler

/-! ### The internal transfers -/

namespace PrismaInternalTransferExecutor

theorem requireRecord_obeys_limit (id : String) :
    (limitProtocol db0 sends).Obeys i (fun st' x => st' = st ∧ ∀ row, x = .ok row → Owned db0 row)
      (requireRecord id) st := by
  refine Obeys.await_bind (P := limitProtocol db0 sends) trivial (fun record hrecord => ?_)
    fun _ _ => ⟨rfl, fun _ h => by cases h⟩
  cases record with
  | none => exact ⟨rfl, fun _ h => by cases h⟩
  | some row =>
    refine ⟨rfl, fun row' h => ?_⟩
    cases h
    exact hrecord.2

/-- The money moves, and nothing that the limits depend on does. -/
theorem moveFunds_obeys_limit (params : InternalTransferParams) (transfer : Transfer) :
    (limitProtocol db0 sends).Obeys i (fun st' _ => st.Later st') (moveFunds params transfer) st := by
  refine Obeys.bind (P := limitProtocol db0 sends) (requireRecord_obeys_limit _) (fun st1 source h1 => ?_)
    fun _ _ h => h.1 ▸ .refl _
  obtain ⟨rfl, hsource⟩ := h1
  refine Obeys.bind (P := limitProtocol db0 sends) (requireRecord_obeys_limit _) (fun st2 destination h2 => ?_)
    fun _ _ h => h.1 ▸ .refl _
  obtain ⟨rfl, hdestination⟩ := h2
  refine Obeys.ofExcept_bind (P := limitProtocol db0 sends) (fun sourceAccount hs => ?_) fun _ _ => .refl _
  refine Obeys.ofExcept_bind (P := limitProtocol db0 sends) (fun destinationAccount hd => ?_) fun _ _ => .refl _
  obtain ⟨hsourceRow, hab, -⟩ := AccountMapper.toDomain_ok hs
  obtain ⟨hdestinationRow, -⟩ := AccountMapper.toDomain_ok hd
  split
  · exact .refl _
  refine Obeys.ofExcept_bind (P := limitProtocol db0 sends) (fun totalDebit _ => ?_) fun _ _ => .refl _
  refine Obeys.ofExcept_bind (P := limitProtocol db0 sends) (fun debited hdebit => ?_) fun _ _ => .refl _
  have hsource : Owned db0 (AccountMapper.toPersistence debited) :=
    Owned.debited hab (hsourceRow.symm ▸ hsource source rfl) hdebit
  refine passing_bind (MaxBalanceGuardService.assertWithinLimit_calls (fun _ => trivial) _ _) (Prog.returns_true _)
    (fun st3 _ h3 _ => ?_) fun _ _ h => h
  refine Obeys.ofExcept_bind (P := limitProtocol db0 sends) (fun credited hcredit => ?_) fun _ _ => h3
  have hdestination : Owned db0 (AccountMapper.toPersistence credited) :=
    Owned.credited (hdestinationRow.symm ▸ hdestination destination rfl) hcredit
  refine Obeys.bind (P := limitProtocol db0 sends) (updateAccount_obeys hsource) (fun st4 _ h4 => ?_)
    fun _ _ h => h ▸ h3
  obtain rfl := h4
  refine Obeys.bind (P := limitProtocol db0 sends) (updateAccount_obeys hdestination) (fun st5 _ h5 => ?_)
    fun _ _ h => h ▸ h3
  obtain rfl := h5
  exact passing_bind (PrismaLedgerRecorderService.post_calls trivial (fun _ => trivial) fun _ => trivial)
    (Prog.returns_true _) (fun st6 _ h6 _ => h3.trans h6) fun _ _ h6 => h3.trans h6

/-- The transfer that is inserted is the one that was checked. -/
theorem body_obeys_limit (params : InternalTransferParams) {t : Transfer} (hfunded : Funded db0 (sends i) st t) :
    (limitProtocol db0 sends).Obeys i (fun _ _ => True) (body params t) st := by
  have hmove : (limitProtocol db0 sends).Obeys i (fun st' _ => st.Later st') (during t (moveFunds params t)) st :=
    Obeys.mapError (P := limitProtocol db0 sends) (moveFunds_obeys_limit params t)
  refine Obeys.bind (P := limitProtocol db0 sends) hmove (fun st1 accounts h1 => ?_) fun _ _ _ => trivial
  refine InitiateExternalTransferHandler.during_ofExcept_limit (fun completed ht => ?_) fun _ => trivial
  obtain ⟨-, hsame, hsuccess⟩ := SameOrder.of_markSuccessful ht
  have hcounted : (TransferMapper.toPersistence completed).counted = true := by
    simp [TransferRecord.counted, TransferMapper.toPersistence, hsuccess]
  have hspends : Spends db0 (sends i) st1 (TransferMapper.toPersistence completed) :=
    ((hfunded.later h1).same hsame).spends fun h => by
      rw [hsuccess] at h
      cases h
  refine Obeys.bind (P := limitProtocol db0 sends) (R := fun _ _ => True) ?_ (fun _ _ _ => trivial) fun _ _ _ => trivial
  exact Obeys.mapError (P := limitProtocol db0 sends) (.await ⟨hcounted, hspends⟩ fun _ _ => trivial)

/-- However it ends, the transaction leaves nothing staged. -/
theorem moved_obeys_limit (params : InternalTransferParams) {t : Transfer} (hfunded : Funded db0 (sends i) st t) :
    (limitProtocol db0 sends).Obeys i (fun st' _ => Unstaged st') (moved params t) st := by
  unfold moved transaction
  refine Obeys.bind (P := limitProtocol db0 sends) (R := fun st' _ => st' = st) ?_ (fun st1 _ h1 => ?_)
    fun _ _ h => h ▸ hfunded.staged
  · exact Obeys.mapError (P := limitProtocol db0 sends) (.await trivial fun r _ => by rcases r with e | x <;> rfl)
  · obtain rfl := h1
    refine Obeys.bind (P := limitProtocol db0 sends) (R := fun st' x => ∀ thrown, x = .error thrown →
      Unstaged st') ?_
      (fun st2 result _ => ?_) fun _ _ h => h _ rfl
    · refine Obeys.tryCatch (P := limitProtocol db0 sends) (body_obeys_limit params hfunded)
        (fun _ _ _ _ h => by cases h) fun st2 thrown _ => ?_
      refine Obeys.bind (P := limitProtocol db0 sends) (R := fun st' _ => Unstaged st') ?_ (fun _ _ h _ _ => h)
        fun _ _ h _ _ => h
      refine Obeys.mapError (P := limitProtocol db0 sends) (.await trivial fun r hy => ?_)
      rcases r with e | x
      · exact absurd hy not_false
      · rfl
    · refine Obeys.bind (P := limitProtocol db0 sends) (R := fun st' _ => Unstaged st') ?_ (fun _ _ h => h)
        fun _ _ h => h
      exact Obeys.mapError (P := limitProtocol db0 sends) (.await trivial fun r _ => by rcases r with e | x <;> rfl)

theorem recordFailure_keeps (error : Err) (t : Transfer) :
    (limitProtocol db0 sends).Keeps i Unstaged (recordFailure error t : Handler α) := by
  refine .ofExcept_bind fun failed ht => .bind (saveUncounted_keeps (.inr ?_)) fun _ => .throw _
  by_cases hopen : t.status.isTerminal = false
  · rw [Transfer.markFailed_of hopen] at ht
    cases ht
    rfl
  · simp [Transfer.markFailed, Transfer.assertNotTerminal, hopen, bind, Except.bind] at ht

theorem execute_obeys_limit (params : InternalTransferParams)
    (hready : Ready db0 (sends i) st params.sourceAccountId params.amount.minorUnits) :
    (limitProtocol db0 sends).Obeys i (fun st' _ => Unstaged st') (execute params) st := by
  refine Obeys.bind (P := limitProtocol db0 sends) (draw_obeys_limit hready fun _ _ _ => ⟨rfl, rfl, rfl⟩)
    (fun st1 t h1 => ?_)
    fun _ _ h => h.1
  refine Obeys.bind (P := limitProtocol db0 sends) (R := fun st' _ => Unstaged st') ?_ (fun _ _ h => h) fun _ _ h => h
  exact Obeys.tryCatch (P := limitProtocol db0 sends) (moved_obeys_limit params (h1.2 t rfl).1) (fun _ _ h => h)
    fun st2 thrown h => recordFailure_keeps _ _ st2 h

end PrismaInternalTransferExecutor

namespace InitiateInternalTransferHandler

theorem execute_keeps (fuel : Nat) (command : InitiateInternalTransferCommand)
    (hmine : sends i command.sourceAccountId) :
    (limitProtocol db0 sends).Keeps i Unstaged (execute fuel command) := by
  refine IdempotencyGuardService.run_keeps (P := limitProtocol db0 sends) passing_unstaged (fun _ => trivial) trivial
    (fun _ => trivial) (fun st hst => ?_)
    (fun _ => passing_keeps (rehydrateTransfer_calls (fun _ => trivial) _)) _ _ _ _
  show (limitProtocol db0 sends).Obeys i _ (doExecute command) st
  unfold doExecute
  split
  · exact hst
  refine Obeys.bind (P := limitProtocol db0 sends) (findAccount_obeys _) (fun st1 account h1 => ?_)
    fun _ _ h => h.1 ▸ hst
  obtain ⟨rfl, haccount⟩ := h1
  cases account with
  | none => exact hst
  | some account =>
    obtain ⟨row, hid, ⟨row0, hrow0, huser0, hcurrency0⟩, hl⟩ := haccount _ rfl account rfl
    obtain ⟨hrow, -⟩ := AccountMapper.toDomain_ok hl
    have hrowUser : account.userId = row.userId := congrArg AccountRecord.userId hrow
    have hrowCurrency : account.currency = row.currency := congrArg AccountRecord.currency hrow
    dsimp only
    split
    · exact hst
    · rename_i huser
      simp only [ne_eq, not_not] at huser
      refine Obeys.ofExcept_bind (P := limitProtocol db0 sends) (fun amount hamount => ?_) fun _ _ => hst
      refine Obeys.bind (P := limitProtocol db0 sends)
        (KycTransferLimitCheckerService.assertWithinLimits_obeys row0 (hid ▸ hrow0)
          (huser0.symm.trans (hrowUser.symm.trans huser))
          (hcurrency0.symm.trans (hrowCurrency.symm.trans (Money.fromDecimalString_currency hamount).symm)) hmine hst)
        (fun st2 _ h2 => ?_) fun _ _ h => h.1
      refine Obeys.ofExcept_bind (P := limitProtocol db0 sends) (fun fee _ => ?_) fun _ _ => h2.1
      refine Obeys.bind (P := limitProtocol db0 sends)
        (PrismaInternalTransferExecutor.execute_obeys_limit _ (h2.2 rfl)) (fun st3 _ h3 => ?_) fun _ _ h => h
      exact Keeps.bind (P := limitProtocol db0 sends) (publishAll_unstaged _) (fun _ => .pure _) st3 h3

end InitiateInternalTransferHandler

/-! ## The parties -/

theorem SourceRequest.program_keeps (request : SourceRequest) (hmine : sends i request.sourceAccountId) :
    (limitProtocol db0 sends).Keeps i Unstaged request.program := by
  cases request with
  | internal fuel command =>
    exact .bind (InitiateInternalTransferHandler.execute_keeps fuel command hmine) fun _ => .pure _
  | external fuel command =>
    exact .bind (InitiateExternalTransferHandler.execute_keeps fuel command hmine) fun _ => .pure _

theorem oneByOne_keeps : ∀ {requests : List SourceRequest},
    (∀ request ∈ requests, sends i request.sourceAccountId) →
    (limitProtocol db0 sends).Keeps i Unstaged (oneByOne requests)
  | [], _ => .pure _
  | request :: _, h =>
    .bind (.tryCatch (request.program_keeps (h request List.mem_cons_self)) fun _ => .pure _) fun _ =>
      oneByOne_keeps fun request' hmem => h request' (List.mem_cons_of_mem _ hmem)

end

theorem LimitedParty.program_keeps {db0 : Db} (parties : PId → LimitedParty) (i : PId) :
    (limitProtocol db0 fun j => (parties j).Sends).Keeps i Unstaged (parties i).program := by
  cases hparty : parties i with
  | initiations requests =>
    refine oneByOne_keeps fun request hmem => ?_
    show (parties i).Sends request.sourceAccountId
    rw [hparty]
    exact ⟨request, hmem, rfl⟩
  | confirmation command => exact ConfirmExternalTransferHandler.execute_keeps command

theorem limits_preserved {db0 : Db} {sends : PId → String → Prop}
    (hsends : ∀ i j accountId, sends i accountId → sends j accountId → j = i) :
    (limitProtocol db0 sends).Preserves anySchedule (LimitInv db0 sends) where
  call h hok _ hx := h.step hsends hok hx
  act ms h := ⟨fun i => (h.clock i).trans (Nat.le_add_right _ _), h.kyc, h.accounts.tick ms, h.table,
    ⟨h.staged.writes, h.staged.inserted, h.staged.apart⟩⟩

theorem LimitInv.init {db0 : Db} {sends : PId → String → Prop} (clock : Nat) (h0 : Regular db0) :
    LimitInv db0 sends (.init db0 clock) fun _ => .init where
  clock _ := Nat.zero_le _
  kyc := ⟨rfl, rfl⟩
  accounts := .init clock fun row hrow => ⟨row, Table.find?_of_mem hrow, rfl, rfl⟩
  table := ⟨h0.nonneg, h0.untraced, fun _ _ h => absurd h (Option.not_mem_none _),
    fun _ _ h => absurd h List.not_mem_nil, fun row hrow limits hlimits => h0.within row hrow limits hlimits⟩
  staged := by
    refine ⟨fun i => ?_, fun _ _ h => absurd h (Option.not_mem_none _),
      fun _ _ h => absurd h (Option.not_mem_none _)⟩
    rw [Store.staged_init]
    rfl

/-- **The limits on transfers hold in every window.** Where the initiations from an account follow one another, and
whatever else goes on meanwhile - other accounts' transfers, news from the provider, calls that fail - in every
24 hours the SUCCESSFUL and PROCESSING transfers from an account come to no more than the daily limit of its holder's
tier, and none of them is over the limit for one. -/
theorem transfers_within_limits (parties : PId → LimitedParty) (hturn : OneAtATime parties) (db0 : Db) (clock : Nat)
    (h0 : Regular db0) {c : Config Op.Res Err Store Err Unit}
    (hr : anySchedule.Reach ⟨.init db0 clock, fun i => (parties i).program⟩ c) :
    ∀ row ∈ c.store.db.accounts.rows, WithinTransferLimits c.store.db row := by
  have htracks : (limitProtocol db0 fun i => (parties i).Sends).Tracks (LimitInv db0 fun i => (parties i).Sends)
      (fun _ st _ => Unstaged st)
      (⟨.init db0 clock, fun i => (parties i).program⟩ : Config Op.Res Err Store Err Unit) fun _ => .init :=
    ⟨.init clock h0, fun i => LimitedParty.program_keeps parties i _ rfl⟩
  obtain ⟨sts, hinv, -⟩ := reach (limits_preserved fun i j accountId hi hj => hturn j i accountId hj hi) htracks hr
  intro row hrow limits hlimits
  obtain ⟨row0, hrow0, huser, hcurrency⟩ := hinv.accounts.rows row hrow
  have hlimits0 : transferLimitsOf db0 row0 = .ok limits := by
    rw [← hlimits, transferLimitsOf, transferLimitsOf, hinv.kyc.1, hinv.kyc.2, huser, hcurrency]
  have hwithin := hinv.table.within row0 (Table.mem_of_find? hrow0) limits hlimits0
  rwa [Table.key_of_find? hrow0] at hwithin

/-- A sender with plenty on the account. -/
def sampleSender : AccountRecord := { sampleAccount with balance := 20000000 }

/-- Someone to send to. -/
def sampleReceiver : AccountRecord := ⟨"other", "user2", "0123456788", .NGN, 0, .ACTIVE, 1⟩

def sampleRent : SourceRequest := .internal 0 ⟨"user", "acc", "other", "30000.00", "rent", none⟩

/-- Program 1 sends ₦30,000.00 three times: a TIER_1 user may send ₦50,000.00 a day. -/
def sampleLimitedParties (i : PId) : LimitedParty :=
  if i = 1 then .initiations [sampleRent, sampleRent, sampleRent] else .confirmation ⟨"7", true, none⟩

theorem sampleLimitedParties_turn : OneAtATime sampleLimitedParties := by
  have hone : ∀ i accountId, (sampleLimitedParties i).Sends accountId → i = 1 := by
    intro i accountId h
    by_contra hi
    rw [sampleLimitedParties, if_neg hi] at h
    exact h
  exact fun i j accountId hi hj => (hone i accountId hi).trans (hone j accountId hj).symm

/-- What a transfer that goes through is answered, the check included. -/
def sampleDebit (id : String) (reference : TransferReference) : List Ans :=
  [.ok, .ok, .ok, .ok, .ok, .ok, .uuid id, .reference reference, .ok, .ok, .ok, .ok, .ok, .ok, .ok, .uuid "j", .ok, .ok,
    .ok, .ok, .ok, .ok, .ok]

def sampleLaterReference : TransferReference := ⟨"KUDI-BBBBBBBBBBBBBBBB", by decide⟩

/-- The second transfer is refused, the third goes through a day later. -/
def sampleThreeRents : List (System.Move Ans Nat) :=
  System.calls 1 (sampleDebit "t" sampleReference) ++ System.calls 1 [Ans.ok, .ok, .ok, .ok, .ok] ++
    [.act (rollingWindowMs + 1)] ++ System.calls 1 (sampleDebit "t2" sampleLaterReference)

theorem transfers_within_limits_sample : ∃ c : Config Op.Res Err Store Err Unit,
    c.store.db.transfers.rows.map (fun r => (r.id, r.amountMinorUnits, r.createdAt)) =
      [("t", 3000000, 0), ("t2", 3000000, rollingWindowMs + 1)] ∧
    ∀ row ∈ c.store.db.accounts.rows, WithinTransferLimits c.store.db row := by
  have hplay : (anySchedule.play sampleThreeRents
      ⟨.init (.of [sampleSender, sampleReceiver] []) 0, fun i => (sampleLimitedParties i).program⟩).any fun c =>
        c.store.db.transfers.rows.map (fun r => (r.id, r.amountMinorUnits, r.createdAt)) =
          [("t", 3000000, 0), ("t2", 3000000, rollingWindowMs + 1)] := by
    decide +kernel
  obtain ⟨c, hc, hsent⟩ := System.play_seen _ hplay
  have hempty : ∀ r ∈ (Db.of [sampleSender, sampleReceiver] []).transfers.rows, False :=
    fun _ h => absurd h List.not_mem_nil
  have hregular : Regular (.of [sampleSender, sampleReceiver] []) := by
    refine ⟨fun r hr => (hempty r hr).elim, fun r hr => (hempty r hr).elim,
      fun row _ limits _ => ⟨fun cap _ start => ?_, fun cap _ r hr => (hempty r hr).elim⟩⟩
    exact Int.natCast_nonneg _
  exact ⟨c, hsent, transfers_within_limits sampleLimitedParties sampleLimitedParties_turn _ 0 hregular
    (System.reach_of_play _ hc)⟩

end Kudi
