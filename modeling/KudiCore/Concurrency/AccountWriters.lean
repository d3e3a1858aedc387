import KudiCore.Concurrency.OptimisticLocking
import KudiCore.Transfers.ExternalTransfer

/-!
# Who writes accounts

Each program of the repository that touches an account obeys `accountProtocol`: it never saves
anything but one mutation of a row it has loaded. Read off the programs alone, call by call.

| here | there |
| --- | --- |
| `mutateAccount_obeys`  | credit, debit, freeze, unfreeze, close and activate |
| `initiateExternal_obeys`, `confirmExternal_obeys` | the hold and the compensating credits |
-/

namespace Kudi

open Interleave Protocol

variable {pol : Policy} {i : PId} {ε α β : Type}

/-! ## Calls that do not matter to the protocol -/

/-- Calls that are permitted and leave the copies as they are. -/
def Outside (pol : Policy) : Op → Prop
  | .account .. | .transaction _ => False
  | .transfer c _ => c = .prisma
  | .ledgerEntry _ (.findFirst _) => True
  | .ledgerEntry c (.createMany _) => c = .prisma ∧ pol.direct
  | _ => True

theorem outside_quiet {op : Op} (h : Outside pol op) : (accountProtocol pol).Quiet i op := by
  intro st
  cases op with
  | account c q => exact absurd h id
  | transaction q => exact absurd h id
  | transfer c q =>
    obtain rfl : c = .prisma := h
    refine ⟨trivial, fun r => ?_⟩
    cases q <;> rcases r with e | x <;> first | rfl | exact ite_self _
  | ledgerEntry c q =>
    cases q with
    | findFirst id => exact ⟨by cases c <;> trivial, fun r => by rcases r with e | x <;> rfl⟩
    | createMany data =>
      obtain ⟨rfl, hd⟩ := h
      exact ⟨hd, fun r => by rcases r with e | x <;> rfl⟩
  | _ => exact ⟨trivial, fun r => by rcases r with e | x <;> rfl⟩

theorem outside_bind {p : Program ε α} {f : α → Program ε β} {Q : Copies → Except ε β → Prop} {st : Copies}
    (hp : p.Calls (Outside pol)) (hok : ∀ a, (accountProtocol pol).Obeys i Q (f a) st)
    (herr : ∀ e, Q st (.error e)) : (accountProtocol pol).Obeys i Q (p >>= f) st :=
  Obeys.quiet_bind (P := accountProtocol pol) (hp.mono fun _ => outside_quiet) hok herr

/-- The same, with what `p` returns. -/
theorem outside_returns_bind {R : α → Prop} {p : Program ε α} {f : α → Program ε β}
    {Q : Copies → Except ε β → Prop} {st : Copies} (hp : p.Calls (Outside pol)) (hr : p.Returns R)
    (hok : ∀ a, R a → (accountProtocol pol).Obeys i Q (f a) st) (herr : ∀ e, Q st (.error e)) :
    (accountProtocol pol).Obeys i Q (p >>= f) st :=
  Obeys.quiet_returns_bind (P := accountProtocol pol) (hp.mono fun _ => outside_quiet) hr hok herr

theorem outside_transfer (q : TransferCall) : Outside pol (.transfer .prisma q) := rfl

theorem outside_kyc (c : Client) (q : KycCall) : Outside pol (.kyc c q) := trivial

theorem publishAll_outside (events : List DomainEvent) : (publishAll events).Calls (Outside pol) :=
  publishAll_calls (fun _ => trivial) events

theorem saveTransfer_outside (t : Transfer) : (PrismaTransferRepository.save t).Calls (Outside pol) :=
  PrismaTransferRepository.save_calls outside_transfer t

theorem assertWithinLimits_outside (userId sourceAccountId : String) (amount : Money) :
    (KycTransferLimitCheckerService.assertWithinLimits userId sourceAccountId amount).Calls (Outside pol) :=
  KycTransferLimitCheckerService.assertWithinLimits_calls (outside_kyc _) trivial (fun _ _ _ => rfl) _ _ _

theorem draw_outside (initiate : Nat → TransferReference → String → α) :
    (draw initiate).Calls (Outside pol) := draw_calls trivial trivial trivial initiate

theorem postTransferJournal_outside (hd : pol.direct) (t : Transfer) (narration : String)
    (legs : List LedgerPostingLeg) : (postTransferJournal t narration legs).Calls (Outside pol) :=
  PrismaLedgerRecorderService.post_calls trivial (fun _ => trivial) fun _ => ⟨rfl, hd⟩

/-! ## Loading and saving -/

/-- Nothing staged, committed or rolled back in between. -/
structure SameTx (st st' : Copies) : Prop where
  pending : st'.pending = st.pending
  committed : st'.committed = st.committed

theorem SameTx.refl (st : Copies) : SameTx st st := ⟨rfl, rfl⟩

/-- `a` was loaded from a row held as a copy. -/
def Loaded (st : Copies) (a : Account) : Prop := ∃ r ∈ st.seen, AccountMapper.toDomain r = .ok a

/-- `a` is one mutation of a row held as a copy. -/
def Mutated (st : Copies) (a : Account) : Prop :=
  ∃ r ∈ st.seen, Mutates r (AccountMapper.toPersistence a) a.domainEvents

theorem findById_bind {id : String} {f : Option Account → Handler β} {Q : Copies → Except Err β → Prop}
    {st : Copies}
    (hok : ∀ st' a, SameTx st st' → (∀ acc, a = some acc → Loaded st' acc) →
      (accountProtocol pol).Obeys i Q (f a) st')
    (herr : ∀ st' e, SameTx st st' → Q st' (.error e)) :
    (accountProtocol pol).Obeys i Q (PrismaAccountRepository.findById id >>= f) st := by
  refine ⟨trivial, fun r _ => ?_⟩
  rcases r with e | (_ | row)
  · exact herr st e (.refl st)
  · exact hok st none (.refl st) nofun
  · refine ofExcept_bind_outer (x := AccountMapper.toDomain row) ?_ ?_
    · exact fun a ha => hok (st.see row) (some a) ⟨rfl, rfl⟩ fun acc h => by
        cases h
        exact ⟨row, List.mem_cons_self, ha⟩
    · exact fun e _ => herr _ e ⟨rfl, rfl⟩
where
  ofExcept_bind_outer {x : Except Err Account} {st : Copies}
      (hok : ∀ a, x = .ok a → (accountProtocol pol).Obeys i Q (f (some a)) st)
      (herr : ∀ e, x = .error e → Q st (.error e)) :
      (accountProtocol pol).Obeys i Q ((do return some (← Prog.ofExcept x) : Handler _) >>= f) st := by
    cases x with
    | ok a => exact hok a rfl
    | error e => exact herr e rfl

theorem save_obeys (hd : pol.direct) {a : Account} {st : Copies} (hm : Mutated st a) :
    (accountProtocol pol).Obeys i (fun st' _ => SameTx st st') (PrismaAccountRepository.save a) st := by
  obtain ⟨r, hr, hm⟩ := hm
  have hver : a.version = r.version + 1 := hm.version
  unfold PrismaAccountRepository.save
  rw [if_neg (by omega)]
  refine .await_bind ⟨fun _ => hd, r, hr, ?_, hm⟩ (fun n _ => ?_) fun e _ => .refl st
  · show a.version - 1 = r.version
    omega
  · by_cases hn : n = 0
    · subst hn
      exact SameTx.refl st
    · simp only [if_neg hn]
      simp only [accountProtocol, if_neg hn]
      exact ⟨rfl, rfl⟩

/-! ## The account handlers -/

/-- Obeying the protocol, with nothing said about the end. -/
abbrev Writes (pol : Policy) (i : PId) (p : Program ε α) (st : Copies) : Prop :=
  (accountProtocol pol).Obeys i (fun _ _ => True) p st

theorem mutateAccount_obeys (hd : pol.direct) {accountId : String} {mutate : Account → Handler Account}
    (hmut : ∀ st a, Loaded st a →
      (accountProtocol pol).Obeys i (fun st' x => ∀ a', x = .ok a' → Mutated st' a') (mutate a) st)
    (st : Copies) : Writes pol i (mutateAccount accountId mutate) st := by
  refine findById_bind (fun st' account _ hacc => ?_) fun _ _ _ => trivial
  cases account with
  | none => trivial
  | some account =>
    refine (hmut st' account (hacc account rfl)).bind (fun st'' a h => ?_) fun _ _ _ => trivial
    exact (save_obeys hd (h a rfl)).bind
      (fun _ _ _ => outside_bind (publishAll_outside _) (fun _ => trivial) fun _ => trivial) fun _ _ _ => trivial

/-- The same frame, for any protocol that lets it load, save what it has made of the row, and publish; `K` is
what its state keeps to. -/
theorem mutateAccount_obeys_of {P : Protocol Op.Res Err} {K : P.State → Prop} {accountId : String}
    {mutate : Account → Handler Account} {st : P.State}
    (hload : P.ok i st (.account .prisma (.findUnique accountId)) ∧
      ∀ r, P.yields i st (.account .prisma (.findUnique accountId)) r →
        K (P.next i st (.account .prisma (.findUnique accountId)) r))
    (hmut : ∀ row a, P.yields i st (.account .prisma (.findUnique accountId)) (.ok (some row)) →
      AccountMapper.toDomain row = .ok a →
      P.Obeys i (fun st' x => K st' ∧ ∀ a', x = .ok a' → a'.version ≠ 0 ∧
          P.ok i st' (.account .prisma
            (.updateMany (a'.version - 1) (AccountMapper.toPersistence a') a'.domainEvents)) ∧
          ∀ r, K (P.next i st' (.account .prisma
            (.updateMany (a'.version - 1) (AccountMapper.toPersistence a') a'.domainEvents)) r))
        (mutate a) (P.next i st (.account .prisma (.findUnique accountId)) (.ok (some row))))
    (hpublish : ∀ st' e, K st' → P.ok i st' (.publish e) ∧ ∀ r, P.yields i st' (.publish e) r →
      K (P.next i st' (.publish e) r)) :
    P.Obeys i (fun st' _ => K st') (mutateAccount accountId mutate) st := by
  refine Obeys.bind (R := fun st' x => K st' ∧ ∀ o, x = .ok o → ∀ a, o = some a → ∃ row,
    st' = P.next i st (.account .prisma (.findUnique accountId)) (.ok (some row)) ∧
      P.yields i st (.account .prisma (.findUnique accountId)) (.ok (some row)) ∧
      AccountMapper.toDomain row = .ok a) ?_ (fun st' o hR => ?_) fun _ _ h => h.1
  · refine ⟨hload.1, fun r hr => ?_⟩
    have hK := hload.2 r hr
    rcases r with e | (_ | row)
    · exact ⟨hK, nofun⟩
    · refine ⟨hK, fun o ho => ?_⟩
      cases ho
      exact nofun
    · refine Obeys.ofExcept_bind (x := AccountMapper.toDomain row) (fun a ha => ⟨hK, fun o ho a' ha' => ?_⟩)
        fun e _ => ⟨hK, nofun⟩
      cases ho
      cases ha'
      exact ⟨row, rfl, hr, ha⟩
  · cases o with
    | none => exact hR.1
    | some account =>
      obtain ⟨row, rfl, hy, hl⟩ := hR.2 _ rfl account rfl
      refine (hmut row account hy hl).bind (fun st' a' h => ?_) fun _ _ h => h.1
      obtain ⟨hv, hok, hnext⟩ := h.2 a' rfl
      refine Obeys.bind (R := fun st'' _ => K st'') ?_ (fun st'' _ hK => ?_) fun _ _ h => h
      · unfold PrismaAccountRepository.save
        rw [if_neg hv]
        refine .await_bind hok (fun n _ => ?_) fun _ _ => hnext _
        by_cases hn : n = 0
        · subst hn
          exact hnext _
        · simp only [if_neg hn]
          exact hnext _
      · refine Obeys.bind (R := fun st'' _ => K st'') ?_ (fun _ _ h => h) fun _ _ h => h
        exact Obeys.of_calls (P := P) (K := K) (T := fun op => ∃ e, op = .publish e)
          (fun st op hK hT => by
            obtain ⟨e, rfl⟩ := hT
            exact hpublish st e hK)
          (publishAll_calls (fun e => ⟨e, rfl⟩) _) hK

/-- A mutator that is a computation on the loaded aggregate. -/
theorem pure_mutate {m : Account → Except Err Account}
    (hm : ∀ r a a', AccountMapper.toDomain r = .ok a → m a = .ok a' →
      Mutates r (AccountMapper.toPersistence a') a'.domainEvents) {st : Copies} {a : Account} (ha : Loaded st a) :
    (accountProtocol pol).Obeys i (fun st' x => ∀ a', x = .ok a' → Mutated st' a') (Prog.ofExcept (m a)) st := by
  obtain ⟨r, hr, hl⟩ := ha
  exact .ofExcept fun a' h => ⟨r, hr, hm r a a' hl h⟩

theorem creditHandler_obeys (hd : pol.direct) (command : CreditAccountCommand) (st : Copies) :
    Writes pol i (CreditAccountHandler.execute command) st := by
  refine mutateAccount_obeys hd (fun st' a ha => ?_) st
  refine .ofExcept_bind (fun amount _ => ?_) nofun
  refine outside_bind (MaxBalanceGuardService.assertWithinLimit_calls (outside_kyc _) _ _) (fun _ => ?_) nofun
  exact pure_mutate (m := fun a => a.credit amount command.reference) (fun r a a' hl h => mutates_credit hl h) ha

theorem debitHandler_obeys (hd : pol.direct) (command : DebitAccountCommand) (st : Copies) :
    Writes pol i (DebitAccountHandler.execute command) st := by
  refine mutateAccount_obeys hd (fun st' a ha => ?_) st
  refine .ofExcept_bind (fun amount _ => ?_) nofun
  exact pure_mutate (m := fun a => a.debit amount command.reference) (fun r a a' hl h => mutates_debit hl h) ha

theorem freezeHandler_obeys (hd : pol.direct) (command : FreezeAccountCommand) (st : Copies) :
    Writes pol i (FreezeAccountHandler.execute command) st :=
  mutateAccount_obeys hd (fun _ _ ha => pure_mutate (m := fun a => .ok (a.freeze command.reason))
    (fun r a a' hl h => by cases h; exact mutates_freeze hl _) ha) st

theorem unfreezeHandler_obeys (hd : pol.direct) (command : UnfreezeAccountCommand) (st : Copies) :
    Writes pol i (UnfreezeAccountHandler.execute command) st :=
  mutateAccount_obeys hd (fun _ _ ha => pure_mutate (m := fun a => .ok a.unfreeze)
    (fun r a a' hl h => by cases h; exact mutates_unfreeze hl) ha) st

theorem closeHandler_obeys (hd : pol.direct) (command : CloseAccountCommand) (st : Copies) :
    Writes pol i (CloseAccountHandler.execute command) st :=
  mutateAccount_obeys hd (fun _ _ ha => pure_mutate (m := Account.close)
    (fun _ _ _ hl h => mutates_close hl h) ha) st

theorem activateHandler_obeys (hd : pol.direct) (command : ActivateAccountCommand) (st : Copies) :
    Writes pol i (ActivateAccountHandler.execute command) st :=
  mutateAccount_obeys hd (fun _ _ ha => pure_mutate (m := fun a => .ok a.activate)
    (fun r a a' hl h => by cases h; exact mutates_activate hl) ha) st

/-! ## The external-transfer handlers -/

theorem compensate_obeys (hd : pol.direct) (transfer : Transfer) (totalDebit : Except Err Money)
    (narration : String) (st : Copies) : Writes pol i (compensate transfer totalDebit narration) st := by
  refine findById_bind (fun st' account _ hacc => ?_) fun _ _ _ => trivial
  cases account with
  | none => trivial
  | some account =>
    obtain ⟨row, hrow, hl⟩ := hacc account rfl
    refine .ofExcept_bind (fun totalDebit _ => ?_) fun _ _ => trivial
    refine .ofExcept_bind (fun credited hc => ?_) fun _ _ => trivial
    have hm : Mutated st' credited := ⟨row, hrow, mutates_credit hl hc⟩
    exact (save_obeys hd hm).bind
      (fun _ _ _ => outside_bind (postTransferJournal_outside hd _ _ _) (fun _ => trivial) fun _ => trivial)
      fun _ _ _ => trivial

theorem Writes.bind {p : Program ε α} {f : α → Program ε β} {st : Copies} (hp : Writes pol i p st)
    (hf : ∀ st' a, Writes pol i (f a) st') : Writes pol i (p >>= f) st :=
  Obeys.bind hp (fun st' a _ => hf st' a) fun _ _ _ => trivial

theorem Writes.outside {p : Program ε α} (hp : p.Calls (Outside pol)) (st : Copies) : Writes pol i p st :=
  (Obeys.quiet (P := accountProtocol pol) (hp.mono fun _ => outside_quiet) p.returns_true st).mono
    fun _ _ _ => trivial

theorem Writes.tryCatch {ε' : Type} {p : Program ε α} {h : ε → Program ε' α} {st : Copies}
    (hp : Writes pol i p st)
    (hh : ∀ st' e, Writes pol i (h e) st') : Writes pol i (p.tryCatch h) st :=
  Obeys.tryCatch hp (fun _ _ _ => trivial) fun st' e _ => hh st' e

theorem Writes.ofExcept_bind {x : Except ε α} {f : α → Program ε β} {st : Copies}
    (h : ∀ a, x = .ok a → Writes pol i (f a) st) : Writes pol i (Prog.ofExcept x >>= f) st :=
  Obeys.ofExcept_bind h fun _ _ => trivial

namespace InitiateExternalTransferHandler

theorem hold_obeys (hd : pol.direct) (command : InitiateExternalTransferCommand) (st : Copies) :
    Writes pol i (hold command) st := by
  refine findById_bind (fun st' account _ hacc => ?_) fun _ _ _ => trivial
  cases account with
  | none => trivial
  | some account =>
    dsimp only
    split
    · trivial
    · obtain ⟨row, hrow, hl⟩ := hacc account rfl
      refine Writes.ofExcept_bind fun amount _ => ?_
      refine outside_bind (assertWithinLimits_outside _ _ _) (fun _ => ?_) fun _ => trivial
      refine Writes.ofExcept_bind fun fee _ => Writes.ofExcept_bind fun totalDebit _ =>
        Writes.ofExcept_bind fun recipient _ => Writes.ofExcept_bind fun debited hdeb => ?_
      have hm : Mutated st' debited := ⟨row, hrow, mutates_debit hl hdeb⟩
      exact (save_obeys hd hm).bind (fun _ _ _ => trivial) fun _ _ _ => trivial

theorem record_outside (hd : pol.direct) (command : InitiateExternalTransferCommand) (sourceAccount : Account)
    (recipient : ExternalRecipient) (amount fee totalDebit : Money) :
    (record command sourceAccount recipient amount fee totalDebit).Calls (Outside pol) :=
  .bind (draw_outside _) fun _ => .bind (saveTransfer_outside _) fun _ =>
    .bind (postTransferJournal_outside hd _ _ _) fun _ => trivial

theorem accepted_outside (hd : pol.direct) (command : InitiateExternalTransferCommand) (totalDebit : Money)
    (events : List DomainEvent) (transfer : Transfer) (payoutResult : PayoutInitiationResult) :
    (accepted command totalDebit events transfer payoutResult).Calls (Outside pol) := by
  have hmark : (markAccepted command totalDebit transfer payoutResult).Calls (Outside pol) := ?_
  · exact .bind hmark fun marked => .bind (calls_during (saveTransfer_outside _)) fun _ =>
      .bind (calls_during (publishAll_outside _)) fun _ => trivial
  unfold markAccepted
  split
  · exact .bind (calls_during (.ofExcept _)) fun _ =>
      .bind (calls_during (postTransferJournal_outside hd _ _ _)) fun _ => trivial
  · exact calls_during (.ofExcept _)

theorem payOut_obeys (hd : pol.direct) (command : InitiateExternalTransferCommand) (recipient : ExternalRecipient)
    (totalDebit : Money) (events : List DomainEvent) (transfer : Transfer) (st : Copies) :
    Writes pol i (payOut command recipient totalDebit events transfer) st := by
  refine Writes.tryCatch (Writes.outside ?_ st) fun st' thrown => ?_
  · exact .bind (calls_during (FlutterwavePayoutProvider.initiatePayout_calls (fun _ => trivial) _ _ _ _))
      fun _ => accepted_outside hd _ _ _ _ _
  · refine Writes.bind (compensate_obeys hd _ _ _ _) fun st'' _ => ?_
    refine Writes.outside (.bind (.ofExcept _) fun _ => .bind (saveTransfer_outside _) fun _ =>
      .bind (publishAll_outside _) fun _ => ?_) st''
    trivial

theorem doExecute_obeys (hd : pol.direct) (command : InitiateExternalTransferCommand) (st : Copies) :
    Writes pol i (doExecute command) st := by
  refine Writes.bind (hold_obeys hd command st) fun st' held => ?_
  refine Writes.bind (Writes.outside (record_outside hd _ _ _ _ _ _) st') fun st'' transfer => ?_
  exact Writes.bind (payOut_obeys hd _ _ _ _ _ st'') fun _ _ => trivial

end InitiateExternalTransferHandler

theorem confirmExternal_obeys (hd : pol.direct) (command : ConfirmExternalTransferCommand) (st : Copies) :
    Writes pol i (ConfirmExternalTransferHandler.execute command) st := by
  refine outside_bind (PrismaTransferRepository.findByProviderReference_calls outside_transfer _) (fun found => ?_)
    fun _ => trivial
  cases found with
  | none => trivial
  | some transfer =>
    dsimp only
    split
    · trivial
    · split
      · exact Writes.outside (.bind (.ofExcept _) fun _ => .bind (saveTransfer_outside _) fun _ =>
          .bind (.ofExcept _) fun _ => .bind (postTransferJournal_outside hd _ _ _) fun _ =>
            publishAll_outside _) st
      · refine Writes.bind (compensate_obeys hd _ _ _ _) fun st' _ => ?_
        exact Writes.outside (.bind (.ofExcept _) fun _ => .bind (saveTransfer_outside _)
          fun _ => publishAll_outside _) st'

/-! ## Under an idempotency key -/

theorem rehydrateTransfer_outside (resourceId : Option String) :
    (rehydrateTransfer resourceId).Calls (Outside pol) :=
  rehydrateTransfer_calls (fun _ => outside_transfer _) resourceId

/-- `run` adds nothing that touches an account. -/
theorem run_obeys {o : Operation α} (hr : ∀ r, (o.rehydrate r).Calls (Outside pol)) {st : Copies}
    (he : Writes pol i o.execute st) (userId scope : String) (key : Option String) (fuel : Nat) :
    Writes pol i (IdempotencyGuardService.run userId scope key fuel o) st := by
  exact IdempotencyGuardService.run_obeys_of (P := accountProtocol pol) (K := fun _ => True)
    (fun _ => outside_quiet trivial) (outside_quiet trivial) (fun _ => outside_quiet trivial) trivial he
    (fun resourceId => Writes.outside (hr resourceId) st) _ _ _ _

theorem initiateExternal_obeys (hd : pol.direct) (fuel : Nat) (command : InitiateExternalTransferCommand)
    (st : Copies) : Writes pol i (InitiateExternalTransferHandler.execute fuel command) st :=
  run_obeys rehydrateTransfer_outside (InitiateExternalTransferHandler.doExecute_obeys hd command st) _ _ _ _

end Kudi
