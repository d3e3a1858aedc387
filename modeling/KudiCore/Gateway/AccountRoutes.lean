import KudiCore.Concurrency.KycGate
import KudiCore.Gateway.Authority
import KudiCore.Interleave.Keeping

/-!
# The routes to accounts

Each obeys `authorityProtocol`, call by call: what it saves is made of a copy by an operation that the policy permits on
that copy. The operations of the staff are permitted by the route's roles, the holder's by the ownership check.
-/

namespace Kudi

open Interleave Protocol
open Identity (AccessTokenPayload)

variable {config : GatewayConfig} {incoming : PId → Incoming} {mine : PId → String → Prop}
  {stored : TransferRecord → Prop} {i : PId} {st st' : Holdings}
  {ε α β : Type}

/-! ## Calls that need no permission -/

/-- Calls that write neither accounts nor transfers, and of which nothing is remembered. -/
def Neutral : Op → Prop
  | .account .. | .transaction _ => False
  | .transfer _ (.create _) | .transfer _ (.updateMany ..) | .transfer _ (.findFirst _) => False
  | _ => True

theorem neutral_quiet {op : Op} (h : Neutral op) : (authorityProtocol config incoming mine stored).Quiet i op := by
  intro st
  cases op with
  | account c q => exact absurd h not_false
  | transaction q => exact absurd h not_false
  | transfer c q =>
    cases q with
    | findUnique id => exact ⟨trivial, fun r => by rcases r with e | x <;> rfl⟩
    | sumSince id statuses since => exact ⟨trivial, fun r => by rcases r with e | x <;> rfl⟩
    | _ => exact absurd h not_false
  | _ => exact ⟨trivial, fun r => by rcases r with e | x <;> rfl⟩

theorem neutral_bind {p : Program ε α} {f : α → Program ε β} {Q : Holdings → Except ε β → Prop}
    (hp : p.Calls Neutral) (hok : ∀ a, (authorityProtocol config incoming mine stored).Obeys i Q (f a) st)
    (herr : ∀ e, Q st (.error e)) : (authorityProtocol config incoming mine stored).Obeys i Q (p >>= f) st :=
  Obeys.quiet_bind (P := authorityProtocol config incoming mine stored) (hp.mono fun _ => neutral_quiet) hok herr

/-- A program that obeys the protocol from wherever it is, to the end. -/
abbrev Confined (config : GatewayConfig) (incoming : PId → Incoming) (mine : PId → String → Prop)
    (stored : TransferRecord → Prop) (i : PId) (p : Program ε α) (st : Holdings) : Prop :=
  (authorityProtocol config incoming mine stored).Obeys i (fun _ _ => True) p st

theorem Confined.neutral {p : Program ε α} (hp : p.Calls Neutral) (st : Holdings) :
    Confined config incoming mine stored i p st :=
  (Obeys.quiet (P := authorityProtocol config incoming mine stored)
    (hp.mono fun _ => neutral_quiet) p.returns_true st).mono
    fun _ _ _ => trivial

theorem Confined.bind {p : Program ε α} {f : α → Program ε β} (hp : Confined config incoming mine stored i p st)
    (hf : ∀ st' a, Confined config incoming mine stored i (f a) st') :
    Confined config incoming mine stored i (p >>= f) st :=
  Obeys.bind (P := authorityProtocol config incoming mine stored) hp (fun st' a _ => hf st' a) fun _ _ _ => trivial

theorem publishAll_neutral (events : List DomainEvent) : (publishAll events).Calls Neutral :=
  publishAll_calls (fun _ => trivial) events

theorem postTransferJournal_neutral (t : Transfer) (narration : String) (legs : List LedgerPostingLeg) :
    (postTransferJournal t narration legs).Calls Neutral :=
  postTransferJournal_calls trivial (fun _ => trivial) t narration legs

/-! ## Loading and saving accounts -/

/-- Account `a` has been loaded under `id`, and it belongs to whom it did belong. -/
def Fetched (st st' : Holdings) (id : String) (a : Account) : Prop :=
  ∃ row ∈ st'.accounts, row.id = id ∧ AccountMapper.toDomain row = .ok a ∧
    ∀ r ∈ st.accounts, r.id = id → SameHolder r row

/-- Copies are added. -/
structure Grows (st st' : Holdings) : Prop where
  accounts : ∀ r ∈ st.accounts, r ∈ st'.accounts
  transfers : st'.transfers = st.transfers

theorem Grows.refl (st : Holdings) : Grows st st := ⟨fun _ h => h, rfl⟩

theorem findById_obeys_authority (id : String) :
    (authorityProtocol config incoming mine stored).Obeys i
      (fun st' x => Grows st st' ∧ ∀ o, x = .ok o → ∀ a, o = some a → Fetched st st' id a)
      (PrismaAccountRepository.findById id) st := by
  refine Obeys.await_bind (P := authorityProtocol config incoming mine stored) trivial (fun record hrecord => ?_)
    fun _ _ => ⟨.refl st, fun o ho => by cases ho⟩
  cases record with
  | none =>
    refine ⟨.refl st, fun o ho a ha => ?_⟩
    cases ho
    cases ha
  | some row =>
    have hgrows : Grows st { st with accounts := row :: st.accounts } := ⟨fun _ h => List.mem_cons_of_mem _ h, rfl⟩
    refine Obeys.ofExcept_bind (P := authorityProtocol config incoming mine stored) (x := AccountMapper.toDomain row)
      (fun a hl => ?_) fun _ _ => ⟨hgrows, fun o ho => by cases ho⟩
    refine ⟨hgrows, fun o ho a' ha => ?_⟩
    cases ho
    cases ha
    exact ⟨row, List.mem_cons_self, hrecord.1, hl, hrecord.2⟩

/-- `a` is what a permitted operation makes of a copy. -/
def Entitled (config : GatewayConfig) (stored : TransferRecord → Prop) (incoming : Incoming) (st : Holdings)
    (a : Account) : Prop :=
  ∃ row ∈ st.accounts, ∃ b op, AccountMapper.toDomain row = .ok b ∧ op.apply b = .ok a ∧
    Permitted config stored incoming row op

theorem Entitled.version {a : Account} (h : Entitled config stored (incoming i) st a) : a.version ≠ 0 := by
  obtain ⟨row, -, b, op, hload, happly, -⟩ := h
  have hturns : op.Turns row (.account (AccountMapper.toPersistence a) a.domainEvents) := ⟨b, a, hload, happly, rfl⟩
  obtain ⟨-, -, -, hversion, -⟩ := hturns.row
  intro h0
  have : (AccountMapper.toPersistence a).version = 0 := h0
  omega

theorem Entitled.ok {a : Account} {c : Client} (h : Entitled config stored (incoming i) st a) :
    (authorityProtocol config incoming mine stored).ok i st (.account c (.updateMany
      ((AccountMapper.toPersistence a).version - 1) (AccountMapper.toPersistence a) a.domainEvents)) := by
  obtain ⟨row, hrow, b, op, hload, happly, hpermitted⟩ := h
  have hturns : op.Turns row (.account (AccountMapper.toPersistence a) a.domainEvents) := ⟨b, a, hload, happly, rfl⟩
  obtain ⟨hid, -, -, hversion, -⟩ := hturns.row
  exact ⟨row, hrow, by omega, hid, op, hpermitted, hturns⟩

theorem update_obeys_authority {a : Account} {c : Client} (h : Entitled config stored (incoming i) st a) :
    (authorityProtocol config incoming mine stored).Obeys i (fun st' _ => st' = st) (PrismaAccountRepository.update a c)
      st := by
  refine Obeys.await_bind (P := authorityProtocol config incoming mine stored) h.ok (fun n _ => ?_) fun _ _ => rfl
  split <;> rfl

theorem save_obeys_authority {a : Account} (h : Entitled config stored (incoming i) st a) :
    (authorityProtocol config incoming mine stored).Obeys i (fun st' _ => st' = st)
      (PrismaAccountRepository.save a) st := by
  unfold PrismaAccountRepository.save
  rw [if_neg h.version]
  exact update_obeys_authority h

/-- The frame of the account handlers. -/
theorem mutateAccount_obeys_authority {accountId : String} {mutate : Account → Handler Account}
    (hmut : ∀ st' a, Fetched st st' accountId a → (authorityProtocol config incoming mine stored).Obeys i
      (fun st'' x => st'' = st' ∧ ∀ a', x = .ok a' → Entitled config stored (incoming i) st' a') (mutate a) st') :
    (authorityProtocol config incoming mine stored).Obeys i (fun st' _ => Grows st st') (mutateAccount accountId mutate)
      st := by
  refine Obeys.bind (P := authorityProtocol config incoming mine stored) (findById_obeys_authority _)
    (fun st1 account h1 => ?_)
    fun _ _ h => h.1
  cases account with
  | none => exact h1.1
  | some account =>
    refine Obeys.bind (P := authorityProtocol config incoming mine stored) (hmut st1 account (h1.2 _ rfl account rfl))
      (fun st2 a' h2 => ?_) fun _ _ h => h.1 ▸ h1.1
    obtain ⟨rfl, hentitled⟩ := h2
    refine Obeys.bind (P := authorityProtocol config incoming mine stored) (save_obeys_authority (hentitled a' rfl))
      (fun st3 _ h3 => ?_) fun _ _ h => h ▸ h1.1
    obtain rfl := h3
    exact neutral_bind (publishAll_neutral _) (fun _ => h1.1) fun _ => h1.1

/-- A handler that applies one operation. -/
theorem mutateAccount_one {accountId : String} (op : AccountOperation) {mutate : Account → Handler Account}
    (hmutate : ∀ a, mutate a = Prog.ofExcept (op.apply a))
    (hpermitted : ∀ row, row.id = accountId → (∀ r ∈ st.accounts, r.id = accountId → SameHolder r row) →
      Permitted config stored (incoming i) row op) :
    (authorityProtocol config incoming mine stored).Obeys i (fun st' _ => Grows st st') (mutateAccount accountId mutate)
      st := by
  refine mutateAccount_obeys_authority fun st' a hfetched => ?_
  obtain ⟨row, hrow, hid, hload, hsame⟩ := hfetched
  rw [hmutate]
  exact .ofExcept ⟨rfl, fun a' ha => ⟨row, hrow, a, op, hload, ha, hpermitted row hid hsame⟩⟩

/-! ## The routes to accounts -/

section
variable {user : AccessTokenPayload}

theorem RolesGuard.canActivate_ok {roles : List Identity.UserRole} (h : RolesGuard.canActivate roles user = .ok ()) :
    roles = [] ∨ user.role ∈ roles := by
  unfold RolesGuard.canActivate at h
  split at h
  · rename_i hc
    rcases Bool.or_eq_true_iff.1 hc with he | hm
    · exact .inl (List.isEmpty_iff.1 he)
    · exact .inr (List.contains_iff_mem.1 hm)
  · cases h

theorem mem_accountFreezeRoles {role : Identity.UserRole} (h : role ∈ complianceRoles) :
    role ∈ accountFreezeRoles := by
  cases role <;> revert h <;> decide

theorem openAccount_confined (bankCode : String) (randomInt : Fin 10 → Fin 1000000) {command : OpenAccountCommand}
    (hopens : ∀ id accountNumber, OpensAccount (incoming i)
      (AccountMapper.toPersistence (.opened id command.userId accountNumber command.currency))) (st : Holdings) :
    Confined config incoming mine stored i (OpenAccountHandler.execute bankCode randomInt command) st := by
  have hgenerate : Confined config incoming mine stored i
    (NubanAccountNumberGenerator.generate bankCode randomInt) st :=
    (Obeys.of_calls (P := authorityProtocol config incoming mine stored) (K := fun _ => True)
      (T := fun op => ∃ number, op = .account .prisma (.count number))
      (fun _ _ _ hop => by obtain ⟨_, rfl⟩ := hop; exact ⟨trivial, fun _ _ => trivial⟩)
      (generate_calls _ _) trivial).mono fun _ _ _ => trivial
  refine hgenerate.bind fun st1 accountNumber => ?_
  refine Obeys.await_bind (P := authorityProtocol config incoming mine stored) trivial (fun id _ => ?_)
    fun _ _ => trivial
  refine Confined.bind ?_ fun st2 _ => neutral_bind (publishAll_neutral _) (fun _ => trivial) fun _ => trivial
  exact Obeys.await (P := authorityProtocol config incoming mine stored) (hopens id accountNumber) fun _ _ => trivial
where
  generate_calls (bankCode : String) (randomInt : Fin 10 → Fin 1000000) :
      (NubanAccountNumberGenerator.generate bankCode randomInt).Calls fun op =>
        ∃ number, op = .account .prisma (.count number) :=
    attempts_calls bankCode _
  attempts_calls (bankCode : String) : ∀ serials : List (Fin 1000000),
      (NubanAccountNumberGenerator.attempts bankCode serials).Calls fun op =>
        ∃ number, op = .account .prisma (.count number)
    | [] => trivial
    | n :: serials => .bind (.ofExcept _) fun accountNumber => .bind (.bind (.await ⟨_, rfl⟩) fun _ => trivial)
        fun taken => by
          cases taken with
          | true => exact attempts_calls bankCode serials
          | false => trivial

theorem creditAccount_confined {accountId : String} {dto : MoveMoneyDto} (hadmin : user.role ∈ adminRoles)
    (hcredits : incoming i = .request (.bearer (some user) (.creditAccount accountId dto))) (st : Holdings) :
    Confined config incoming mine stored i (AccountsController.credit accountId dto) st := by
  refine Obeys.mono (Q := fun st' _ => Grows st st') (mutateAccount_obeys_authority fun st' a hfetched => ?_)
    fun _ _ _ => trivial
  obtain ⟨row, hrow, rfl, hload, -⟩ := hfetched
  refine Obeys.ofExcept_bind (P := authorityProtocol config incoming mine stored) (fun amount hamount => ?_)
    fun _ _ => ⟨rfl, fun _ h => by cases h⟩
  refine neutral_bind (MaxBalanceGuardService.assertWithinLimit_calls (fun _ => trivial) _ _) (fun _ => ?_)
    fun _ => ⟨rfl, fun _ h => by cases h⟩
  refine .ofExcept ⟨rfl, fun a' ha => ⟨row, hrow, a, .credit amount dto.reference, hload, ha, ?_⟩⟩
  rw [hcredits]
  exact .credit hadmin hamount

theorem debitAccount_confined {accountId : String} {dto : MoveMoneyDto} (hadmin : user.role ∈ adminRoles)
    (hdebits : incoming i = .request (.bearer (some user) (.debitAccount accountId dto))) (st : Holdings) :
    Confined config incoming mine stored i (AccountsController.debit accountId dto) st := by
  refine Obeys.mono (Q := fun st' _ => Grows st st') (mutateAccount_obeys_authority fun st' a hfetched => ?_)
    fun _ _ _ => trivial
  obtain ⟨row, hrow, rfl, hload, -⟩ := hfetched
  refine Obeys.ofExcept_bind (P := authorityProtocol config incoming mine stored) (fun amount hamount => ?_)
    fun _ _ => ⟨rfl, fun _ h => by cases h⟩
  refine .ofExcept ⟨rfl, fun a' ha => ⟨row, hrow, a, .debit amount dto.reference, hload, ha, ?_⟩⟩
  rw [hdebits]
  exact .debit hadmin hamount

/-- Both routes that freeze. -/
theorem freeze_confined {accountId : String} {dto : FreezeAccountDto} {route : Route}
    (hrole : user.role ∈ accountFreezeRoles) (hfreezes : incoming i = .request (.bearer (some user) route))
    (hroute : route = .freezeAccount accountId dto ∨ route = .staffFreezeAccount accountId dto) (st : Holdings) :
    Confined config incoming mine stored i (FreezeAccountHandler.execute ⟨accountId, dto.reason⟩) st := by
  refine Obeys.mono (Q := fun st' _ => Grows st st') (mutateAccount_one (.freeze dto.reason) (fun _ => rfl)
    fun row hid _ => ?_) fun _ _ _ => trivial
  rw [hfreezes]
  exact .freeze hrole (hid ▸ hroute)

/-- Both routes that unfreeze. -/
theorem unfreeze_confined {accountId : String} {route : Route} (hrole : user.role ∈ accountFreezeRoles)
    (hunfreezes : incoming i = .request (.bearer (some user) route))
    (hroute : route = .unfreezeAccount accountId ∨ route = .staffUnfreezeAccount accountId) (st : Holdings) :
    Confined config incoming mine stored i (UnfreezeAccountHandler.execute ⟨accountId⟩) st := by
  refine Obeys.mono (Q := fun st' _ => Grows st st') (mutateAccount_one .unfreeze (fun _ => rfl)
    fun row hid _ => ?_) fun _ _ _ => trivial
  rw [hunfreezes]
  exact .unfreeze hrole (hid ▸ hroute)

/-- What the query lets through is the caller's own, or the caller is an admin. -/
theorem getAccountById_obeys (accountId : String) :
    (authorityProtocol config incoming mine stored).Obeys i
      (fun st' x => ∀ dto, x = .ok dto → ∃ row ∈ st'.accounts, row.id = accountId ∧
        (row.userId = user.sub ∨ user.role ∈ adminRoles))
      (GetAccountByIdHandler.execute ⟨accountId, user.sub, AccountsController.isAdmin user⟩) st := by
  refine Obeys.bind (P := authorityProtocol config incoming mine stored) (findById_obeys_authority _)
    (fun st1 account h1 => ?_)
    fun _ _ _ _ h => by cases h
  cases account with
  | none => exact fun _ h => by cases h
  | some account =>
    obtain ⟨row, hrow, hid, hload, -⟩ := h1.2 _ rfl account rfl
    obtain ⟨hstored, -⟩ := AccountMapper.toDomain_ok hload
    have huser : account.userId = row.userId := congrArg AccountRecord.userId hstored
    dsimp only
    split
    · exact fun _ h => by cases h
    · rename_i hallowed
      refine fun _ _ => ⟨row, hrow, hid, ?_⟩
      by_cases howner : account.userId = user.sub
      · exact .inl (huser.symm.trans howner)
      · have hadmin : AccountsController.isAdmin user = true := by
          by_contra hno
          exact hallowed ⟨howner, Bool.not_eq_true _ |>.mp hno⟩
        exact .inr (List.contains_iff_mem.1 hadmin)

theorem closeAccount_confined {accountId : String}
    (hcloses : incoming i = .request (.bearer (some user) (.closeAccount accountId))) (st : Holdings) :
    Confined config incoming mine stored i (AccountsController.close user accountId) st := by
  refine Obeys.bind (P := authorityProtocol config incoming mine stored) (getAccountById_obeys accountId)
    (fun st1 _ h1 => ?_)
    fun _ _ _ => trivial
  obtain ⟨copy, hcopy, hid, hallowed⟩ := h1 _ rfl
  refine Obeys.mono (Q := fun st' _ => Grows st1 st') (mutateAccount_one .close (fun _ => rfl)
    fun row hrow hsame => ?_) fun _ _ _ => trivial
  subst hrow
  rw [hcloses]
  exact .close (hallowed.imp_left fun howner => (hsame copy hcopy hid).1 ▸ howner)

theorem tierUpgraded_confined {event : KycTierUpgradedEvent} (hupgraded : incoming i = .tierUpgraded event)
    (st : Holdings) : Confined config incoming mine stored i (KycTierUpgradedHandler.handle event) st := by
  by_cases htier : event.newTier ≠ .TIER_2 ∧ event.newTier ≠ .TIER_3
  · unfold KycTierUpgradedHandler.handle
    rw [if_pos htier]
    trivial
  have htier' : event.newTier = .TIER_2 ∨ event.newTier = .TIER_3 := by
    by_contra hno
    exact htier ⟨fun h => hno (.inl h), fun h => hno (.inr h)⟩
  refine handle_obeys_of (P := authorityProtocol config incoming mine stored)
    (K := fun (st' : Holdings) id => ∃ r ∈ st'.accounts, r.id = id ∧ r.userId = event.userId) trivial
    (fun rows accounts hy hloaded a ha => ?_) (fun st1 id hlisted => ?_) fun _ _ => trivial
  · obtain ⟨row, hrow, hload⟩ := mem_of_mapM_ok hloaded a ha
    obtain ⟨hstored, -⟩ := AccountMapper.toDomain_ok hload
    exact ⟨row, List.mem_append_left _ hrow, congrArg AccountRecord.id hstored.symm, hy row hrow⟩
  · obtain ⟨copy, hcopy, hid, huser⟩ := hlisted
    refine Obeys.mono (Q := fun st' _ => Grows st1 st') (mutateAccount_one .activate (fun _ => rfl)
      fun row hrow hsame => ?_) fun st2 _ hgrows id' hlisted' => ?_
    · rw [hupgraded]
      exact .activate ((hsame copy hcopy hid).1.symm.trans huser) htier'
    · obtain ⟨r, hr, h⟩ := hlisted'
      exact ⟨r, hgrows.accounts r hr, h⟩

end

end Kudi
