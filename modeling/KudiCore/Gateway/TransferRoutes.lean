import KudiCore.Concurrency.SlidingWindow
import KudiCore.Gateway.AccountRoutes
import KudiCore.Mappers

/-!
# The routes to transfers, and the webhook

| here | there |
| --- | --- |
| `Paid`    | the check of the account's owner, and what the transfer costs him |

Whatever a request saves it has itself ordered, so it needs no copy of a transfer; the webhook has ordered nothing, and
saves only what it makes of the copy that it has found by the provider's reference.
-/

namespace Kudi

open Interleave Protocol
open Identity (AccessTokenPayload)

variable {config : GatewayConfig} {incoming : PId → Incoming} {mine : PId → String → Prop}
  {stored : TransferRecord → Prop} {i : PId} {st st' : Holdings}
  {ε ε' α β σ : Type}

/-! ## Composition -/

theorem during_authority_bind {a : σ} {p : Handler α} {f : α → Program (Err × σ) β}
    {R : Holdings → Except Err α → Prop} {Q : Holdings → Except (Err × σ) β → Prop}
    (hp : (authorityProtocol config incoming mine stored).Obeys i R p st)
    (hok : ∀ st' b, R st' (.ok b) → (authorityProtocol config incoming mine stored).Obeys i Q (f b) st')
    (herr : ∀ st' e, R st' (.error e) → Q st' (.error (e, a))) :
    (authorityProtocol config incoming mine stored).Obeys i Q (during a p >>= f) st := by
  have hduring : (authorityProtocol config incoming mine stored).Obeys i
      (fun st' x => ∃ y, R st' y ∧ x = y.mapError fun e => (e, a)) (during a p) st :=
    Obeys.mapError (P := authorityProtocol config incoming mine stored) (hp.mono fun st' y h => ⟨y, h, rfl⟩)
  refine Obeys.bind (P := authorityProtocol config incoming mine stored) hduring (fun st' b h => ?_) fun st' e h => ?_
  · obtain ⟨y, hy, hyb⟩ := h
    cases y with
    | ok b' =>
      cases hyb
      exact hok st' _ hy
    | error e => cases hyb
  · obtain ⟨y, hy, hye⟩ := h
    cases y with
    | ok b => cases hye
    | error e' =>
      cases hye
      exact herr st' _ hy

theorem during_ofExcept_authority {a : σ} {x : Except Err α} {f : α → Program (Err × σ) β}
    {Q : Holdings → Except (Err × σ) β → Prop}
    (hok : ∀ b, x = .ok b → (authorityProtocol config incoming mine stored).Obeys i Q (f b) st)
    (herr : ∀ e, Q st (.error (e, a))) :
    (authorityProtocol config incoming mine stored).Obeys i Q (during a (.ofExcept x) >>= f) st := by
  cases x with
  | ok b => exact hok b rfl
  | error e => exact herr e

theorem during_neutral_authority {a : σ} {p : Handler α} {f : α → Program (Err × σ) β}
    {Q : Holdings → Except (Err × σ) β → Prop} (hp : p.Calls Neutral)
    (hok : ∀ b, (authorityProtocol config incoming mine stored).Obeys i Q (f b) st)
    (herr : ∀ e, Q st (.error (e, a))) :
    (authorityProtocol config incoming mine stored).Obeys i Q (during a p >>= f) st := by
  refine during_authority_bind (Obeys.quiet (P := authorityProtocol config incoming mine stored)
    (hp.mono fun _ => neutral_quiet) p.returns_true st) (fun st' b h => ?_) fun st' e h => ?_
  · obtain ⟨rfl, -⟩ := h
    exact hok b
  · obtain ⟨rfl, -⟩ := h
    exact herr e

/-! ## Transfers that the request has ordered -/

/-- Nothing that happens to a transfer makes another one of it. -/
theorem TransferOperation.apply_order {op : TransferOperation} {t t' : Transfer} (h : op.apply t = .ok t') :
    t'.id = t.id ∧ (TransferMapper.toPersistence t').order = (TransferMapper.toPersistence t).order := by
  by_cases hopen : t.status.isTerminal = false
  · cases op with
    | markProcessing providerReference =>
      rw [apply, Transfer.markProcessing_of hopen] at h
      cases h
      exact ⟨rfl, rfl⟩
    | markSuccessful =>
      rw [apply, Transfer.markSuccessful_of hopen] at h
      cases h
      exact ⟨rfl, rfl⟩
    | markFailed reason =>
      rw [apply, Transfer.markFailed_of hopen] at h
      cases h
      exact ⟨rfl, rfl⟩
    | markReversed reason =>
      rw [apply, Transfer.markReversed_of hopen] at h
      cases h
      exact ⟨rfl, rfl⟩
  · have hrefused : ∀ action, t.assertNotTerminal action = .error (invalidTransferState t.id t.status action) := by
      simp [Transfer.assertNotTerminal, hopen]
    cases op <;>
      simp [apply, Transfer.markProcessing, Transfer.markSuccessful, Transfer.markFailed, Transfer.markReversed,
        hrefused, bind, Except.bind] at h

theorem Ordered.apply {t t' : Transfer} (h : Ordered (incoming i) (mine i) t) (op : TransferOperation)
    (ht : op.apply t = .ok t') : Ordered (incoming i) (mine i) t' := by
  obtain ⟨hid, horder⟩ := TransferOperation.apply_order ht
  unfold Ordered
  rw [hid, horder]
  exact h

theorem saveOrdered_obeys {t : Transfer} (h : Ordered (incoming i) (mine i) t) :
    (authorityProtocol config incoming mine stored).Obeys i (fun st' _ => st' = st)
      (PrismaTransferRepository.save t) st := by
  unfold PrismaTransferRepository.save
  split
  · exact Obeys.await (P := authorityProtocol config incoming mine stored) (.inl ⟨t, rfl, h⟩) fun r _ => by
      rcases r with e | x <;> rfl
  · rename_i hv
    refine Obeys.await_bind (P := authorityProtocol config incoming mine stored)
      (.inl ⟨t, rfl, h, (Nat.succ_pred_eq_of_ne_zero hv).symm⟩) (fun n _ => ?_) fun _ _ => rfl
    split
    · refine Obeys.await_bind (P := authorityProtocol config incoming mine stored) trivial (fun existing _ => ?_)
        fun _ _ => rfl
      cases existing with
      | none =>
        exact Obeys.await (P := authorityProtocol config incoming mine stored) (.inl ⟨t, rfl, h⟩) fun r _ => by
          rcases r with e | x <;> rfl
      | some row => rfl
    · rfl

/-- The random `id` is the program's own. -/
theorem draw_obeys_authority {initiate : Nat → TransferReference → String → Transfer} :
    (authorityProtocol config incoming mine stored).Obeys i
      (fun st' x => st' = st ∧ ∀ t, x = .ok t → ∃ now reference id, mine i id ∧ t = initiate now reference id)
      (draw initiate) st := by
  refine Obeys.await_bind (P := authorityProtocol config incoming mine stored) trivial (fun now _ => ?_)
    fun _ _ => ⟨rfl, fun _ h => by cases h⟩
  refine Obeys.await_bind (P := authorityProtocol config incoming mine stored) trivial (fun id hid => ?_)
    fun _ _ => ⟨rfl, fun _ h => by cases h⟩
  refine Obeys.await_bind (P := authorityProtocol config incoming mine stored) trivial (fun reference _ => ?_)
    fun _ _ => ⟨rfl, fun _ h => by cases h⟩
  refine ⟨rfl, fun t h => ?_⟩
  cases h
  exact ⟨now, reference, id, hid, rfl⟩

/-- A credit that gives back, where it is permitted. -/
theorem compensate_obeys_authority {t : Transfer} {totalDebit : Except Err Money} {narration : String}
    (hpermitted : ∀ row amount reference, row.id = t.sourceAccountId →
      (∀ r ∈ st.accounts, r.id = t.sourceAccountId → SameHolder r row) → totalDebit = .ok amount →
        Permitted config stored (incoming i) row (.credit amount reference)) :
    (authorityProtocol config incoming mine stored).Obeys i (fun st' _ => Grows st st')
      (compensate t totalDebit narration)
      st := by
  refine Obeys.bind (P := authorityProtocol config incoming mine stored) (findById_obeys_authority _)
    (fun st1 account h1 => ?_)
    fun _ _ h => h.1
  cases account with
  | none => exact h1.1
  | some account =>
    obtain ⟨row, hrow, hid, hload, hsame⟩ := h1.2 _ rfl account rfl
    refine Obeys.ofExcept_bind (P := authorityProtocol config incoming mine stored) (fun total htotal => ?_)
      fun _ _ => h1.1
    refine Obeys.ofExcept_bind (P := authorityProtocol config incoming mine stored) (fun credited hcredit => ?_)
      fun _ _ => h1.1
    have hentitled : Entitled config stored (incoming i) st1 credited :=
      ⟨row, hrow, account, .credit total _, hload, hcredit, hpermitted row total _ hid hsame htotal⟩
    refine Obeys.bind (P := authorityProtocol config incoming mine stored) (save_obeys_authority hentitled)
      (fun st2 _ h2 => ?_)
      fun _ _ h => h ▸ h1.1
    obtain rfl := h2
    exact neutral_bind (postTransferJournal_neutral _ _ _) (fun _ => h1.1) fun _ => h1.1

/-! ## External transfers -/

section
variable {user : AccessTokenPayload} {dto : InitiateExternalTransferDto} {key : Option String} {fuel : Nat}

/-- The holder of the account has been debited what the transfer costs. -/
structure Paid (user : AccessTokenPayload) (dto : InitiateExternalTransferDto) (totalDebit : Money)
    (row : AccountRecord) : Prop where
  id : row.id = dto.sourceAccountId
  owner : row.userId = user.sub
  charged : charged dto.amount row.currency .EXTERNAL = .ok totalDebit

theorem charged_ok {amount : String} {currency : Currency} {type : TransferType} {m fee total : Money}
    (hamount : Money.fromDecimalString amount currency = .ok m)
    (hfee : FlatRateFeeCalculator.calculate m type = .ok fee) (htotal : m.add fee = .ok total) :
    charged amount currency type = .ok total := by
  simp [charged, hamount, hfee, htotal, bind, Except.bind]

/-- The command of the request. -/
abbrev externalCommand (user : AccessTokenPayload) (dto : InitiateExternalTransferDto) (key : Option String) :
    InitiateExternalTransferCommand :=
  ⟨user.sub, dto.sourceAccountId, dto.bankCode, dto.recipientAccountNumber, dto.recipientAccountName, dto.amount,
    dto.narration, key⟩

namespace InitiateExternalTransferHandler

theorem recipient_ok {bankCode accountNumber : String} {accountName : Option String} {recipient : ExternalRecipient}
    (h : ExternalRecipient.create bankCode accountNumber accountName = .ok recipient) :
    recipient.bankCode = bankCode ∧ recipient.accountNumber = accountNumber := by
  unfold ExternalRecipient.create at h
  split at h
  · split at h
    · cases h
      exact ⟨rfl, rfl⟩
    · cases h
  · cases h

theorem hold_obeys_authority (hrequest : incoming i = .request (.bearer (some user) (.initiateExternal dto key fuel))) :
    (authorityProtocol config incoming mine stored).Obeys i
      (fun st' x => ∀ held, x = .ok held → ∃ row ∈ st'.accounts, Paid user dto held.2.2.2.2 row ∧
        Money.fromDecimalString dto.amount held.2.2.1.currency = .ok held.2.2.1 ∧
        held.2.1.bankCode = dto.bankCode ∧ held.2.1.accountNumber = dto.recipientAccountNumber)
      (hold (externalCommand user dto key)) st := by
  refine Obeys.bind (P := authorityProtocol config incoming mine stored) (findById_obeys_authority _)
    (fun st1 account h1 => ?_)
    fun _ _ _ _ h => by cases h
  cases account with
  | none => exact fun _ h => by cases h
  | some account =>
    obtain ⟨row, hrow, hid, hload, -⟩ := h1.2 _ rfl account rfl
    obtain ⟨hstored, -⟩ := AccountMapper.toDomain_ok hload
    have huser : account.userId = row.userId := congrArg AccountRecord.userId hstored
    have hcurrency : account.currency = row.currency := congrArg AccountRecord.currency hstored
    dsimp only
    split
    · exact fun _ h => by cases h
    · rename_i howner
      replace howner : row.userId = user.sub := huser.symm.trans (not_not.1 howner)
      refine Obeys.ofExcept_bind (P := authorityProtocol config incoming mine stored) (fun amount hamount => ?_)
        fun _ _ _ h => by cases h
      have hsame : amount.currency = row.currency := (Money.fromDecimalString_currency hamount).trans hcurrency
      refine neutral_bind (KycTransferLimitCheckerService.assertWithinLimits_calls (fun _ => trivial) trivial
        (fun _ _ _ => trivial) _ _ _) (fun _ => ?_) fun _ _ h => by cases h
      refine Obeys.ofExcept_bind (P := authorityProtocol config incoming mine stored) (fun fee hfee => ?_)
        fun _ _ _ h => by cases h
      refine Obeys.ofExcept_bind (P := authorityProtocol config incoming mine stored) (fun total htotal => ?_)
        fun _ _ _ h => by cases h
      refine Obeys.ofExcept_bind (P := authorityProtocol config incoming mine stored) (fun recipient hrecipient => ?_)
        fun _ _ _ h => by cases h
      refine Obeys.ofExcept_bind (P := authorityProtocol config incoming mine stored) (fun debited hdebit => ?_)
        fun _ _ _ h => by cases h
      have hpaid : Paid user dto total row := ⟨hid, howner, charged_ok (hcurrency ▸ hamount) hfee htotal⟩
      have hentitled : Entitled config stored (incoming i) st1 debited := by
        refine ⟨row, hrow, account, .debit total _, hload, hdebit, ?_⟩
        rw [hrequest]
        exact .sendExternal howner hid hpaid.charged
      refine Obeys.bind (P := authorityProtocol config incoming mine stored) (save_obeys_authority hentitled)
        (fun st2 _ h2 held hheld => ?_) fun _ _ _ _ h => by cases h
      cases hheld
      obtain rfl := h2
      exact ⟨row, hrow, hpaid, by rw [hsame, ← hcurrency]; exact hamount, recipient_ok hrecipient⟩

theorem record_obeys_authority
    (hrequest : incoming i = .request (.bearer (some user) (.initiateExternal dto key fuel))) (sourceAccount : Account)
    {recipient : ExternalRecipient} {amount : Money} (fee totalDebit : Money)
    (hamount : Money.fromDecimalString dto.amount amount.currency = .ok amount)
    (hbank : recipient.bankCode = dto.bankCode) (hnumber : recipient.accountNumber = dto.recipientAccountNumber) :
    (authorityProtocol config incoming mine stored).Obeys i
      (fun st' x => ∀ t, x = .ok t → st' = st ∧ Ordered (incoming i) (mine i) t)
      (record (externalCommand user dto key) sourceAccount recipient amount fee totalDebit) st := by
  refine Obeys.bind (P := authorityProtocol config incoming mine stored) draw_obeys_authority (fun st1 t h1 => ?_)
    fun _ _ _ _ h => by cases h
  obtain ⟨rfl, h1⟩ := h1
  obtain ⟨now, reference, id, hid, rfl⟩ := h1 t rfl
  have hordered : Ordered (incoming i) (mine i) (Transfer.initiateExternal now reference id user.sub dto.sourceAccountId
      recipient amount fee dto.narration) := by
    refine ⟨hid, ?_⟩
    rw [hrequest]
    exact ⟨hamount, by rw [← hbank, ← hnumber]; rfl⟩
  refine Obeys.bind (P := authorityProtocol config incoming mine stored) (saveOrdered_obeys hordered)
    (fun st2 _ h2 => ?_)
    fun _ _ _ _ h => by cases h
  obtain rfl := h2
  refine neutral_bind (postTransferJournal_neutral _ _ _) (fun _ t ht => ?_) fun _ _ h => by cases h
  cases ht
  exact ⟨rfl, hordered⟩

/-- What the `try` block hands on, and what its `catch` gets: the same order. -/
def StillOrdered (incoming : PId → Incoming) (mine : PId → String → Prop) (i : PId) (st st' : Holdings)
    (x : Except (Err × Transfer) Transfer) : Prop :=
  st' = st ∧ match x with
    | .ok t => Ordered (incoming i) (mine i) t
    | .error thrown => Ordered (incoming i) (mine i) thrown.2

theorem accepted_obeys_authority (command : InitiateExternalTransferCommand) (totalDebit : Money)
    (events : List DomainEvent) {t : Transfer} (payoutResult : PayoutInitiationResult)
    (h : Ordered (incoming i) (mine i) t) :
    (authorityProtocol config incoming mine stored).Obeys i (StillOrdered incoming mine i st)
      (accepted command totalDebit events t payoutResult) st := by
  have hmark : (authorityProtocol config incoming mine stored).Obeys i (StillOrdered incoming mine i st)
      (markAccepted command totalDebit t payoutResult) st := by
    unfold markAccepted
    split
    · refine during_ofExcept_authority (fun settled hsettled => ?_) fun _ => ⟨rfl, h⟩
      have hsettled' := h.apply .markSuccessful hsettled
      exact during_neutral_authority (postTransferJournal_neutral _ _ _) (fun _ => ⟨rfl, hsettled'⟩)
        fun _ => ⟨rfl, hsettled'⟩
    · refine Obeys.mapError (P := authorityProtocol config incoming mine stored) (.ofExcept ⟨rfl, ?_⟩)
      cases hprocessing : t.markProcessing payoutResult.providerReference with
      | error e => exact h
      | ok t' => exact h.apply (.markProcessing _) hprocessing
  refine Obeys.bind (P := authorityProtocol config incoming mine stored) hmark (fun st1 marked h1 => ?_)
    fun st1 thrown h1 => h1
  obtain ⟨rfl, hmarked⟩ := h1
  refine during_authority_bind (saveOrdered_obeys hmarked) (fun st2 _ h2 => ?_) fun st2 _ h2 => ⟨h2, hmarked⟩
  obtain rfl := h2
  exact during_neutral_authority (publishAll_neutral _) (fun _ => ⟨rfl, hmarked⟩) fun _ => ⟨rfl, hmarked⟩

theorem Ordered.sourceAccountId {t : Transfer}
    (hrequest : incoming i = .request (.bearer (some user) (.initiateExternal dto key fuel)))
    (h : Ordered (incoming i) (mine i) t) : t.sourceAccountId = dto.sourceAccountId := by
  obtain ⟨-, horders⟩ := h
  rw [hrequest] at horders
  exact congrArg TransferOrder.sourceAccountId horders.2

/-- The refund goes to the account that was debited. -/
theorem reverse_confined (hrequest : incoming i = .request (.bearer (some user) (.initiateExternal dto key fuel)))
    {totalDebit : Money} (events : List DomainEvent) (payoutError : Err) {t : Transfer} {row : AccountRecord}
    (hrow : row ∈ st.accounts) (hpaid : Paid user dto totalDebit row) (h : Ordered (incoming i) (mine i) t) :
    Confined config incoming mine stored i
      (reverse (externalCommand user dto key) totalDebit events payoutError t : Handler α) st := by
  have hsource : t.sourceAccountId = dto.sourceAccountId := Ordered.sourceAccountId hrequest h
  refine Obeys.bind (P := authorityProtocol config incoming mine stored) (compensate_obeys_authority
    fun cur amount reference hid hsame hamount => ?_) (fun st1 _ _ => ?_) fun _ _ _ => trivial
  · obtain ⟨huser, hcurrency⟩ := hsame row hrow (hpaid.id.trans hsource.symm)
    cases hamount
    rw [hrequest]
    exact .refund (huser ▸ hpaid.owner) (hid.trans hsource) (hcurrency ▸ hpaid.charged)
  · refine Obeys.ofExcept_bind (P := authorityProtocol config incoming mine stored) (fun reversed ht => ?_)
      fun _ _ => trivial
    refine Obeys.bind (P := authorityProtocol config incoming mine stored)
      (saveOrdered_obeys (h.apply (.markReversed _) ht)) (fun st2 _ _ => ?_) fun _ _ _ => trivial
    exact neutral_bind (publishAll_neutral _) (fun _ => trivial) fun _ => trivial

theorem payOut_confined (hrequest : incoming i = .request (.bearer (some user) (.initiateExternal dto key fuel)))
    (recipient : ExternalRecipient) {totalDebit : Money} (events : List DomainEvent) {t : Transfer}
    {row : AccountRecord}
    (hrow : row ∈ st.accounts) (hpaid : Paid user dto totalDebit row) (h : Ordered (incoming i) (mine i) t) :
    Confined config incoming mine stored i (payOut (externalCommand user dto key) recipient totalDebit events t)
      st := by
  refine Obeys.tryCatch (P := authorityProtocol config incoming mine stored) (R := StillOrdered incoming mine i st) ?_
    (fun _ _ _ => trivial) fun st1 thrown h1 => ?_
  · exact during_neutral_authority (FlutterwavePayoutProvider.initiatePayout_calls (fun _ => trivial) _ _ _ _)
      (fun _ => accepted_obeys_authority _ _ _ _ h) fun _ => ⟨rfl, h⟩
  · obtain ⟨rfl, hthrown⟩ := h1
    exact reverse_confined hrequest events _ hrow hpaid hthrown

theorem execute_confined (hrequest : incoming i = .request (.bearer (some user) (.initiateExternal dto key fuel)))
    (st : Holdings) : Confined config incoming mine stored i
      (TransfersController.initiateExternal fuel user dto key) st := by
  have hkeeps : (authorityProtocol config incoming mine stored).Keeps i (fun _ => True)
      (execute fuel (externalCommand user dto key)) := by
    refine IdempotencyGuardService.run_keeps (P := authorityProtocol config incoming mine stored) (T := Neutral)
      (fun st' op _ hop => ⟨(neutral_quiet hop st').1, fun _ _ => trivial⟩) (fun _ => trivial) trivial
        (fun _ => trivial)
      (fun st' _ => ?_) (fun _ st' _ => Confined.neutral (rehydrateTransfer_calls (fun _ => trivial) _) st') _ _ _ _
    refine Obeys.bind (P := authorityProtocol config incoming mine stored) (hold_obeys_authority hrequest)
      (fun st1 held h1 => ?_) fun _ _ _ => trivial
    obtain ⟨row, hrow, hpaid, hamount, hbank, hnumber⟩ := h1 held rfl
    refine Obeys.bind (P := authorityProtocol config incoming mine stored)
      (record_obeys_authority hrequest _ _ _ hamount hbank hnumber) (fun st2 t h2 => ?_) fun _ _ _ => trivial
    obtain ⟨rfl, hordered⟩ := h2 t rfl
    refine Obeys.bind (P := authorityProtocol config incoming mine stored)
      (payOut_confined hrequest _ _ hrow hpaid (t := t.pullDomainEvents.2) hordered) (fun _ _ _ => trivial)
      fun _ _ _ => trivial
  exact hkeeps st trivial

end InitiateExternalTransferHandler

end

/-! ## Internal transfers -/

section
variable {user : AccessTokenPayload} {dto : InitiateInternalTransferDto} {key : Option String} {fuel : Nat}

/-- The command of the request. -/
abbrev internalCommand (user : AccessTokenPayload) (dto : InitiateInternalTransferDto) (key : Option String) :
    InitiateInternalTransferCommand :=
  ⟨user.sub, dto.sourceAccountId, dto.destinationAccountId, dto.amount, dto.narration, key⟩

/-- What the executor is handed. -/
structure FromRequest (user : AccessTokenPayload) (dto : InitiateInternalTransferDto)
    (params : InternalTransferParams) : Prop where
  initiator : params.initiatorUserId = user.sub
  source : params.sourceAccountId = dto.sourceAccountId
  destination : params.destinationAccountId = dto.destinationAccountId
  narration : params.narration = dto.narration
  amount : Money.fromDecimalString dto.amount params.amount.currency = .ok params.amount
  fee : FlatRateFeeCalculator.calculate params.amount .INTERNAL = .ok params.fee
  other : dto.sourceAccountId ≠ dto.destinationAccountId

namespace PrismaInternalTransferExecutor

theorem requireRecord_obeys_authority (id : String) :
    (authorityProtocol config incoming mine stored).Obeys i
      (fun st' x => Grows st st' ∧ ∀ row, x = .ok row → row.id = id ∧ row ∈ st'.accounts)
      (requireRecord id) st := by
  refine Obeys.await_bind (P := authorityProtocol config incoming mine stored) trivial (fun record hrecord => ?_)
    fun _ _ => ⟨.refl st, fun _ h => by cases h⟩
  cases record with
  | none => exact ⟨.refl st, fun _ h => by cases h⟩
  | some row =>
    refine ⟨⟨fun _ h => List.mem_cons_of_mem _ h, rfl⟩, fun row' h => ?_⟩
    cases h
    exact ⟨hrecord.1, List.mem_cons_self⟩

/-- The source pays on its holder's word, the destination receives what was sent. -/
theorem moveFunds_confined {params : InternalTransferParams}
    (hrequest : incoming i = .request (.bearer (some user) (.initiateInternal dto key fuel)))
    (h : FromRequest user dto params) (t : Transfer) :
    Confined config incoming mine stored i (moveFunds params t) st := by
  refine Obeys.bind (P := authorityProtocol config incoming mine stored) (requireRecord_obeys_authority _)
    (fun st1 source h1 => ?_) fun _ _ _ => trivial
  obtain ⟨hsourceId, hsource⟩ := h1.2 source rfl
  refine Obeys.bind (P := authorityProtocol config incoming mine stored) (requireRecord_obeys_authority _)
    (fun st2 destination h2 => ?_) fun _ _ _ => trivial
  obtain ⟨hdestinationId, hdestination⟩ := h2.2 destination rfl
  replace hsource := h2.1.accounts source hsource
  refine Obeys.ofExcept_bind (P := authorityProtocol config incoming mine stored) (fun sourceAccount hs => ?_)
    fun _ _ => trivial
  refine Obeys.ofExcept_bind (P := authorityProtocol config incoming mine stored) (fun destinationAccount hd => ?_)
    fun _ _ => trivial
  obtain ⟨hsourceRow, hsourceCurrency, -⟩ := AccountMapper.toDomain_ok hs
  obtain ⟨hdestinationRow, -⟩ := AccountMapper.toDomain_ok hd
  split
  · trivial
  rename_i howner
  replace howner : source.userId = user.sub :=
    (congrArg AccountRecord.userId hsourceRow).symm.trans ((not_not.1 howner).trans h.initiator)
  refine Obeys.ofExcept_bind (P := authorityProtocol config incoming mine stored) (fun totalDebit htotal => ?_)
    fun _ _ => trivial
  refine Obeys.ofExcept_bind (P := authorityProtocol config incoming mine stored) (fun debited hdebit => ?_)
    fun _ _ => trivial
  refine neutral_bind (MaxBalanceGuardService.assertWithinLimit_calls (fun _ => trivial) _ _) (fun _ => ?_)
    fun _ => trivial
  refine Obeys.ofExcept_bind (P := authorityProtocol config incoming mine stored) (fun credited hcredit => ?_)
    fun _ _ => trivial
  have hcharged : charged dto.amount source.currency .INTERNAL = .ok totalDebit := by
    have htotalCurrency : totalDebit.currency = params.amount.currency := by rw [(Money.add_ok.1 htotal).2]
    have hsame : params.amount.currency = source.currency :=
      htotalCurrency.symm.trans (((Account.debit_ok hsourceCurrency).1 hdebit).2.1.trans
        (congrArg AccountRecord.currency hsourceRow))
    exact charged_ok (hsame ▸ h.amount) h.fee htotal
  have hsent : Entitled config stored (incoming i) st2 debited := by
    refine ⟨source, hsource, sourceAccount, .debit totalDebit _, hs, hdebit, ?_⟩
    rw [hrequest]
    exact .sendInternal howner (hsourceId.trans h.source) hcharged
  have hreceived : Entitled config stored (incoming i) st2 credited := by
    refine ⟨destination, hdestination, destinationAccount, .credit params.amount _, hd, hcredit, ?_⟩
    rw [hrequest]
    have hsame : params.amount.currency = destination.currency :=
      (Account.credit_ok.1 hcredit).2.1.trans (congrArg AccountRecord.currency hdestinationRow)
    exact .receiveInternal (by rw [hdestinationId, h.destination]; exact h.other)
      (hdestinationId.trans h.destination) (hsame ▸ h.amount)
  refine Obeys.bind (P := authorityProtocol config incoming mine stored) (update_obeys_authority hsent)
    (fun st3 _ h3 => ?_)
    fun _ _ _ => trivial
  obtain rfl := h3
  refine Obeys.bind (P := authorityProtocol config incoming mine stored) (update_obeys_authority hreceived)
    (fun st4 _ h4 => ?_)
    fun _ _ _ => trivial
  exact neutral_bind (PrismaLedgerRecorderService.post_calls trivial (fun _ => trivial) fun _ => trivial)
    (fun _ => trivial) fun _ => trivial

/-- What has been thrown goes with a transfer that has been ordered. -/
def HandsOn (incoming : PId → Incoming) (mine : PId → String → Prop) (i : PId)
    (x : Except (Err × Transfer) α) : Prop :=
  ∀ thrown, x = .error thrown → Ordered (incoming i) (mine i) thrown.2

theorem HandsOn.ok (a : α) : HandsOn incoming mine i (.ok a) := fun _ h => by cases h

theorem HandsOn.error {thrown : Err × Transfer} (h : Ordered (incoming i) (mine i) thrown.2) :
    HandsOn (α := α) incoming mine i (.error thrown) := fun _ e => by
  cases e
  exact h

theorem HandsOn.thrown {thrown : Err × Transfer} (h : HandsOn (α := α) incoming mine i (.error thrown)) :
    Ordered (incoming i) (mine i) thrown.2 := h thrown rfl

/-- ... or is returned with one. -/
def HandsBack (incoming : PId → Incoming) (mine : PId → String → Prop) (i : PId)
    (x : Except (Err × Transfer) (Transfer × List DomainEvent)) : Prop :=
  HandsOn incoming mine i x ∧ ∀ result, x = .ok result → Ordered (incoming i) (mine i) result.1

theorem HandsBack.error {thrown : Err × Transfer} (h : Ordered (incoming i) (mine i) thrown.2) :
    HandsBack incoming mine i (.error thrown) := ⟨.error h, fun _ e => by cases e⟩

theorem body_obeys_authority {params : InternalTransferParams}
    (hrequest : incoming i = .request (.bearer (some user) (.initiateInternal dto key fuel)))
    (h : FromRequest user dto params) {t : Transfer} (ht : Ordered (incoming i) (mine i) t) :
    (authorityProtocol config incoming mine stored).Obeys i
      (fun _ x => HandsBack incoming mine i x) (body params t) st := by
  refine during_authority_bind (moveFunds_confined hrequest h t) (fun st1 accounts _ => ?_)
    fun _ _ _ => .error ht
  refine during_ofExcept_authority (fun completed hcompleted => ?_) fun _ => .error ht
  have hordered := ht.apply .markSuccessful hcompleted
  refine during_authority_bind (R := fun _ _ => True)
    (Obeys.await (P := authorityProtocol config incoming mine stored) (.inl ⟨completed, rfl, hordered⟩)
      fun _ _ => trivial)
    (fun _ _ _ => ?_) fun _ _ _ => .error hordered
  refine ⟨.ok _, fun result h => ?_⟩
  cases h
  exact hordered

/-- The transaction hands its `catch` what has been ordered. -/
theorem moved_obeys_authority {params : InternalTransferParams}
    (hrequest : incoming i = .request (.bearer (some user) (.initiateInternal dto key fuel)))
    (h : FromRequest user dto params) {t : Transfer} (ht : Ordered (incoming i) (mine i) t) :
    (authorityProtocol config incoming mine stored).Obeys i (fun _ x => HandsOn incoming mine i x)
      (moved params t) st := by
  -- The boundaries are permitted anywhere, and what they throw goes with a transfer that has been ordered.
  have boundary : ∀ {q : TransactionCall} {t' : Transfer} {st1 : Holdings}, Ordered (incoming i) (mine i) t' →
      (authorityProtocol config incoming mine stored).Obeys i (fun _ x => HandsOn incoming mine i x)
        ((Prog.await (Op.transaction q)).mapError fun e => (e, t')) st1 := fun {q} {t'} {st1} h' => by
    have hq : ∀ st, (authorityProtocol config incoming mine stored).ok i st (.transaction q) := by
      cases q <;> exact fun _ => trivial
    refine Obeys.mapError (P := authorityProtocol config incoming mine stored) (.await (hq st1) fun r _ => ?_)
    rcases r with e' | x
    · exact .error h'
    · exact .ok x
  unfold moved transaction
  refine Obeys.bind (P := authorityProtocol config incoming mine stored) (boundary ht) (fun st1 _ _ => ?_)
    fun _ _ h1 => .error h1.thrown
  refine Obeys.bind (P := authorityProtocol config incoming mine stored)
    (R := fun _ x => HandsBack incoming mine i x) ?_
    (fun st2 result h2 => ?_) fun _ _ h2 => .error h2.1.thrown
  · refine Obeys.tryCatch (P := authorityProtocol config incoming mine stored) (body_obeys_authority hrequest h ht)
      (fun _ _ h => h) fun st2 thrown h2 => ?_
    exact Obeys.bind (P := authorityProtocol config incoming mine stored) (boundary ht)
      (fun _ _ _ => .error h2.1.thrown)
      fun _ _ h3 => .error h3.thrown
  · exact Obeys.bind (P := authorityProtocol config incoming mine stored) (boundary (h2.2 result rfl))
      (fun _ _ _ => .ok _)
      fun _ _ h3 => .error h3.thrown

theorem execute_confined {params : InternalTransferParams}
    (hrequest : incoming i = .request (.bearer (some user) (.initiateInternal dto key fuel)))
    (h : FromRequest user dto params) : Confined config incoming mine stored i (execute params) st := by
  refine Obeys.bind (P := authorityProtocol config incoming mine stored) draw_obeys_authority (fun st1 t h1 => ?_)
    fun _ _ _ => trivial
  obtain ⟨now, reference, id, hid, rfl⟩ := h1.2 t rfl
  have hordered : Ordered (incoming i) (mine i) (Transfer.initiateInternal now reference id params.initiatorUserId
      params.sourceAccountId params.destinationAccountId params.amount params.fee params.narration) := by
    refine ⟨hid, ?_⟩
    rw [hrequest, h.initiator, h.source, h.destination, h.narration]
    exact ⟨h.amount, rfl⟩
  refine Confined.bind (Obeys.tryCatch (P := authorityProtocol config incoming mine stored)
    (moved_obeys_authority hrequest h hordered) (fun _ _ _ => trivial) fun st2 thrown h2 => ?_) fun _ _ => trivial
  refine Obeys.ofExcept_bind (P := authorityProtocol config incoming mine stored) (fun failed hfailed => ?_)
    fun _ _ => trivial
  exact Obeys.bind (P := authorityProtocol config incoming mine stored)
    (saveOrdered_obeys (h2.thrown.apply (.markFailed _) hfailed)) (fun _ _ _ => trivial) fun _ _ _ => trivial

end PrismaInternalTransferExecutor

namespace InitiateInternalTransferHandler

theorem execute_confined (hrequest : incoming i = .request (.bearer (some user) (.initiateInternal dto key fuel)))
    (st : Holdings) : Confined config incoming mine stored i
      (TransfersController.initiateInternal fuel user dto key) st := by
  have hkeeps : (authorityProtocol config incoming mine stored).Keeps i (fun _ => True)
      (execute fuel (internalCommand user dto key)) := by
    refine IdempotencyGuardService.run_keeps (P := authorityProtocol config incoming mine stored) (T := Neutral)
      (fun st' op _ hop => ⟨(neutral_quiet hop st').1, fun _ _ => trivial⟩) (fun _ => trivial) trivial
        (fun _ => trivial)
      (fun st' _ => ?_) (fun _ st' _ => Confined.neutral (rehydrateTransfer_calls (fun _ => trivial) _) st') _ _ _ _
    show Confined config incoming mine stored i (doExecute (internalCommand user dto key)) st'
    unfold doExecute
    split
    · trivial
    rename_i hother
    refine Obeys.bind (P := authorityProtocol config incoming mine stored) (findById_obeys_authority _)
      (fun st1 account _ => ?_) fun _ _ _ => trivial
    cases account with
    | none => trivial
    | some account =>
      dsimp only
      split
      · trivial
      · refine Obeys.ofExcept_bind (P := authorityProtocol config incoming mine stored) (fun amount hamount => ?_)
          fun _ _ => trivial
        refine neutral_bind (KycTransferLimitCheckerService.assertWithinLimits_calls (fun _ => trivial) trivial
          (fun _ _ _ => trivial) _ _ _) (fun _ => ?_) fun _ => trivial
        refine Obeys.ofExcept_bind (P := authorityProtocol config incoming mine stored) (fun fee hfee => ?_)
          fun _ _ => trivial
        have hcurrency := Money.fromDecimalString_currency hamount
        refine Confined.bind (PrismaInternalTransferExecutor.execute_confined hrequest
          ⟨rfl, rfl, rfl, rfl, by rw [hcurrency]; exact hamount, hfee, hother⟩) fun st2 result => ?_
        exact neutral_bind (publishAll_neutral _) (fun _ => trivial) fun _ => trivial
  exact hkeeps st trivial

end InitiateInternalTransferHandler

end

/-! ## The webhook -/

section
variable {verifHash : Option String} {payload : FlutterwaveTransferWebhookPayload} {callback : FlutterwaveCallbackData}

namespace ConfirmExternalTransferHandler

/-- A transfer of which the provider has told. -/
theorem saveSettled_confined {r : TransferRecord} {t : Transfer} (hr : r ∈ st.transfers)
    (h : SettlesTransfer config (incoming i) r (TransferMapper.toPersistence t)) :
    (authorityProtocol config incoming mine stored).Obeys i (fun st' _ => st' = st)
      (PrismaTransferRepository.save t) st := by
  obtain ⟨hversion, hid⟩ := h.advances
  replace hversion : t.version = r.version + 1 := hversion
  unfold PrismaTransferRepository.save
  rw [if_neg (by omega)]
  refine Obeys.await_bind (P := authorityProtocol config incoming mine stored) (.inr ⟨r, hr, ?_, hid, h⟩)
    (fun n _ => ?_)
    fun _ _ => rfl
  · show t.version - 1 = r.version
    omega
  · split
    · refine Obeys.await_bind (P := authorityProtocol config incoming mine stored) trivial (fun existing _ => ?_)
        fun _ _ => rfl
      cases existing with
      | none =>
        exact Obeys.await (P := authorityProtocol config incoming mine stored) (.inr ⟨r, hr, hid⟩) fun x _ => by
          rcases x with e | x <;> rfl
      | some row => rfl
    · rfl

/-- What the provider tells of the transfer that it has named. -/
structure Told (config : GatewayConfig) (incoming : Incoming) (command : ConfirmExternalTransferCommand)
    (verifHash : Option String) (payload : FlutterwaveTransferWebhookPayload) (callback : FlutterwaveCallbackData) :
    Prop where
  request : incoming = .request (.webhook verifHash payload)
  valid : FlutterwaveWebhookVerifier.isValid verifHash config.webhookSecretHash = true
  event : payload.event = "transfer.completed"
  data : payload.data = some callback
  providerReference : command.providerReference = toString callback.id
  successful : command.isSuccessful = true → callback.status = .SUCCESSFUL
  failed : command.isSuccessful = false → callback.status = .FAILED ∧
    command.failureReason = callback.complete_message

theorem Told.settles {command : ConfirmExternalTransferCommand}
    (h : Told config (incoming i) command verifHash payload callback) {r : TransferRecord} {t t' : Transfer}
    (href : r.providerReference = some command.providerReference)
    (hload : TransferMapper.toDomain r = .ok t)
    (ht' : command.isSuccessful = true ∧ t.markSuccessful = .ok t' ∨
      command.isSuccessful = false ∧
        t.markReversed (command.failureReason.getD "Payout failed at provider") = .ok t') :
    SettlesTransfer config (incoming i) r (TransferMapper.toPersistence t') := by
  refine ⟨verifHash, payload, callback, t, t', h.request, h.valid, h.event, h.data,
    h.providerReference ▸ href, hload,
    ?_, rfl⟩
  rcases ht' with ⟨hs, ht'⟩ | ⟨hf, ht'⟩
  · exact .inl ⟨h.successful hs, ht'⟩
  · obtain ⟨hstatus, hreason⟩ := h.failed hf
    exact .inr ⟨hstatus, hreason ▸ ht'⟩

theorem execute_confined {command : ConfirmExternalTransferCommand}
    (h : Told config (incoming i) command verifHash payload callback) :
    Confined config incoming mine stored i (execute command) st := by
  have hfind : (authorityProtocol config incoming mine stored).Obeys i
      (fun st' x => ∀ o, x = .ok o → ∀ t, o = some t → ∃ r ∈ st'.transfers,
        r.providerReference = some command.providerReference ∧ stored r ∧ TransferMapper.toDomain r = .ok t)
      (PrismaTransferRepository.findByProviderReference command.providerReference) st := by
    refine Obeys.await_bind (P := authorityProtocol config incoming mine stored) trivial (fun found hfound => ?_)
      fun _ _ _ ho => by cases ho
    cases found with
    | none =>
      intro o ho t ht
      cases ho
      cases ht
    | some row =>
      refine Obeys.ofExcept_bind (P := authorityProtocol config incoming mine stored) (x := TransferMapper.toDomain row)
        (fun t ht => ?_) fun _ _ _ ho => by cases ho
      intro o ho t' ht'
      cases ho
      cases ht'
      exact ⟨row, List.mem_cons_self, hfound.1, hfound.2 rfl, ht⟩
  refine Obeys.bind (P := authorityProtocol config incoming mine stored) hfind (fun st1 found h1 => ?_)
    fun _ _ _ => trivial
  cases found with
  | none => trivial
  | some t =>
    obtain ⟨r, hr, href, hstored, hload⟩ := h1 _ rfl t rfl
    have hloaded := TransferMapper.toDomain_ok hload
    dsimp only
    split
    · trivial
    · rename_i hnotTerminal
      have hopen : r.status.isTerminal = false := by rw [← hloaded.status, Bool.eq_false_of_not_eq_true hnotTerminal]
      split
      · rename_i hsuccessful
        refine Obeys.ofExcept_bind (P := authorityProtocol config incoming mine stored) (fun settled hsettled => ?_)
          fun _ _ => trivial
        refine Obeys.bind (P := authorityProtocol config incoming mine stored)
          (saveSettled_confined hr (h.settles href hload (.inl ⟨hsuccessful, hsettled⟩))) (fun st2 _ _ => ?_)
          fun _ _ _ => trivial
        refine Obeys.ofExcept_bind (P := authorityProtocol config incoming mine stored) (fun total _ => ?_)
          fun _ _ => trivial
        exact neutral_bind (postTransferJournal_neutral _ _ _)
          (fun _ => Confined.neutral (publishAll_neutral _) st2) fun _ => trivial
      · rename_i hfailed
        replace hfailed : command.isSuccessful = false := Bool.not_eq_true _ |>.mp hfailed
        refine Obeys.bind (P := authorityProtocol config incoming mine stored) (compensate_obeys_authority
          fun row amount reference hid _ hamount => ?_) (fun st2 _ h2 => ?_) fun _ _ _ => trivial
        · rw [h.request]
          exact .refundLate h.valid h.event h.data (h.failed hfailed).1 hstored (h.providerReference ▸ href) hload
            hopen hid hamount
        · refine Obeys.ofExcept_bind (P := authorityProtocol config incoming mine stored)
            (fun reversed hreversed => ?_)
            fun _ _ => trivial
          refine Obeys.bind (P := authorityProtocol config incoming mine stored)
            (saveSettled_confined (h2.transfers.symm ▸ hr) (h.settles href hload (.inr ⟨hfailed, hreversed⟩)))
            (fun st3 _ _ => ?_) fun _ _ _ => trivial
          exact Confined.neutral (publishAll_neutral _) st3

end ConfirmExternalTransferHandler

/-- A callback that is not the provider's does nothing. -/
theorem FlutterwaveTransferWebhookController.handle_confined
    (hrequest : incoming i = .request (.webhook verifHash payload)) (st : Holdings) :
    Confined config incoming mine stored i (handle config verifHash payload) st := by
  unfold handle
  split
  · trivial
  rename_i hvalid
  replace hvalid : FlutterwaveWebhookVerifier.isValid verifHash config.webhookSecretHash = true :=
    Bool.not_eq_false _ |>.mp hvalid
  cases hdata : payload.data with
  | none => trivial
  | some callback =>
    dsimp only
    split
    · trivial
    rename_i hevent
    replace hevent : payload.event = "transfer.completed" := not_not.1 hevent
    split
    · rename_i hterminal
      refine ConfirmExternalTransferHandler.execute_confined
        ⟨hrequest, hvalid, hevent, hdata, rfl, fun hs => of_decide_eq_true hs, fun hf => ?_⟩
      replace hf : FlutterwaveTransferMapper.isTerminalSuccess callback.toFlutterwaveTransferData = false := hf
      rw [hf, Bool.false_or] at hterminal
      exact ⟨of_decide_eq_true hterminal, by simp [hterminal]⟩
    · trivial

end

end Kudi
