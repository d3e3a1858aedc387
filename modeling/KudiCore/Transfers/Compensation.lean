import KudiCore.Transfers.Clearing
import KudiCore.Transfers.Redelivery
import KudiCore.Transfers.Saga

/-!
# When the saga compensates

| here | there |
| --- | --- |
| `Accepts`     | Flutterwave has taken the payout |
| `Kept`        | nothing is credited back and nothing reversed: the account stays debited |
| `Caught`      | a later call of the `try` block is rejected, and the compensation goes through |
| `Restored`    | the money is back, and the transfer REVERSED |
| `Compensable` | the compensation goes through, its journal and its save included |

One `try` block covers the payout and the local steps that follow it, and it begins after the hold and the record.
-/

namespace Kudi

open Interleave

/-! ## Onward -/

/-- No money is moved to or from the account, and no transfer becomes REVERSED. -/
def Proceeds (id : String) (s s' : Store) : Prop :=
  s'.funds id = s.funds id ∧ ∀ k row, s'.db.transfers.find? k = some row → row.status = .REVERSED →
    s.db.transfers.find? k = some row

theorem Intact.proceeds {id : String} {s s' : Store} (h : Intact s s') : Proceeds id s s' :=
  ⟨h.funds id, fun _ _ hrow _ => h.transfers ▸ hrow⟩

/-- The calls of that kind. -/
structure Onward (op : Op) : Prop where
  noTransaction : ∀ q, op ≠ .transaction q
  noAccount : op.savedAccount? = none
  noReversal : ∀ c w, op.Performs c w → ∀ data, w.transfer? = some data → data.status ≠ .REVERSED

theorem Sideline.onward {op : Op} (h : Sideline op) : Onward op := by
  refine ⟨h.noTransaction, h.noAccount, fun c w hw data hdata => ?_⟩
  rw [performs_no_transfer h.noTransfer hw] at hdata
  cases hdata

theorem Onward.proceeds {i : PId} {a : Ans} {op : Op} {r : Except Err op.Res} {s s' : Store} {id : String}
    (h : Onward op) (hx : exec i a op s = some (r, s')) : Proceeds id s s' := by
  refine ⟨?_, fun k row hrow hstatus => ?_⟩
  · rw [Store.funds, exec_accounts h.noTransaction h.noAccount hx, Store.funds]
  rcases exec_performs h.noTransaction hx with hsame | ⟨c, w, rfl, hw⟩
  · rwa [hsame.db] at hrow
  cases c with
  | tx => exact hrow
  | prisma =>
    cases w with
    | transfer data =>
      rw [Store.db_write_prisma] at hrow
      by_cases hk : data.id = k
      · rw [Db.apply, ← hk, Table.find?_put_self] at hrow
        cases hrow
        exact absurd hstatus (h.noReversal _ _ hw _ rfl)
      · rwa [Db.apply, Table.find?_put_ne _ hk] at hrow
    | _ => exact hrow

theorem PrismaTransferRepository.save_onward {t : Transfer} (hstatus : t.status ≠ .REVERSED) :
    (save t).Calls Onward := by
  have hcreate : (Prog.await (Op.transfer .prisma (.create (TransferMapper.toPersistence t))) : Handler Unit).Calls
      Onward := by
    refine .await ⟨nofun, rfl, ?_⟩
    rintro c w ⟨-, rfl⟩ data hdata
    cases hdata
    exact hstatus
  have hupdate : Onward (.transfer .prisma (.updateMany (t.version - 1) (TransferMapper.toPersistence t))) := by
    refine ⟨nofun, rfl, ?_⟩
    rintro c w ⟨-, rfl⟩ data hdata
    cases hdata
    exact hstatus
  unfold save
  split
  · exact hcreate
  · refine .bind (.await hupdate) fun n => ?_
    split
    · refine .bind (.await (Sideline.onward ⟨nofun, rfl, rfl⟩)) fun found => ?_
      cases found with
      | none => exact hcreate
      | some _ => trivial
    · trivial

/-! ## The rest of the `try` block -/

theorem during_run {env : Store → Store → Prop} {i : PId} {σ α : Type} {a : σ} {p : Handler α} {s s' : Store}
    {tr : List (Event Op.Res Err Store)} {x : Except (Err × σ) α}
    (h : Run anySchedule env i (during a p) s tr x s') :
    (∃ v, x = .ok v ∧ Run anySchedule env i p s tr (.ok v) s') ∨
      ∃ e, x = .error (e, a) ∧ Run anySchedule env i p s tr (.error e) s' := by
  rcases h.tryCatch with ⟨v, rfl, h1⟩ | ⟨e, s1, tr1, tr2, h1, ⟨rfl, rfl, rfl⟩, rfl⟩
  · exact .inl ⟨v, rfl, h1⟩
  · rw [List.append_nil]
    exact .inr ⟨e, rfl, h1⟩

namespace InitiateExternalTransferHandler

variable {command : InitiateExternalTransferCommand} {i : PId} {s s' : Store} {tr : List (Event Op.Res Err Store)}
  {t : Transfer} {total balance : Money} {payoutResult : PayoutInitiationResult} {events : List DomainEvent}

/-- What an accepted payout makes of the transfer. -/
structure Marked (t t' : Transfer) : Prop extends Advanced t t' where
  status : t'.status ≠ .REVERSED

theorem markAccepted_ends {transfers : Table TransferRecord.id} {x : Except (Err × Transfer) Transfer}
    (hopen : t.status.isTerminal = false) (htotal : t.amount.add t.fee = .ok total)
    (hs : HoldsWith t.sourceAccountId balance transfers s)
    (h : Run anySchedule Meanwhile i (markAccepted command total t payoutResult) s tr x s') :
    HoldsWith t.sourceAccountId balance transfers s' ∧ ((∃ t', x = .ok t' ∧ Marked t t' ∧ Through tr) ∨
      ∃ e t', x = .error (e, t') ∧ t'.sourceAccountId = t.sourceAccountId ∧ Stopped (fun _ => True) tr) := by
  have hpost : Does Meanwhile i (HoldsWith t.sourceAccountId balance transfers) Op.onLedger False
      (postTransferJournal t command.narration (settlementLegs total t.amount t.fee))
      fun _ => HoldsWith t.sourceAccountId balance transfers :=
    postTransferJournal_keeps (PrismaLedgerRecorderService.net_settlementLegs htotal)
  rw [markAccepted, Transfer.markSuccessful_of hopen, Transfer.markProcessing_of hopen] at h
  split at h
  · generalize hmarked : ({ t with
        status := .SUCCESSFUL
        version := t.version + 1
        domainEvents := t.domainEvents ++ [.completed t.id t.reference.value] } : Transfer) = marked at h
    have hm : Marked t marked := hmarked ▸ ⟨⟨rfl, rfl, rfl, rfl, rfl, rfl⟩, nofun⟩
    have h : Run anySchedule Meanwhile i (during marked
      (postTransferJournal t command.narration (settlementLegs total t.amount t.fee)) >>= _) s tr x s' := h
    rcases h.bind with ⟨_, s1, tr1, tr2, h1, ⟨rfl, rfl, rfl⟩, rfl⟩ | ⟨_, rfl, h1⟩
    · rcases during_run h1 with ⟨_, -, h1⟩ | ⟨e, he, -⟩
      · obtain ⟨hthrough, hs'⟩ := hpost.returns hs h1
        exact ⟨hs', .inl ⟨marked, rfl, hm, hthrough.append .nil⟩⟩
      · cases he
    · rcases during_run h1 with ⟨_, he, -⟩ | ⟨e, he, h2⟩
      · cases he
      · cases he
        obtain ⟨hs', hstopped⟩ := hpost.throws hs h2
        exact ⟨hs', .inr ⟨e, marked, rfl, hm.source, (hstopped.resolve_right fun h => h.1).mono
          fun _ _ _ => trivial⟩⟩
  · obtain ⟨rfl, rfl, rfl⟩ := h
    exact ⟨hs, .inl ⟨_, rfl, ⟨⟨rfl, rfl, rfl, rfl, rfl, rfl⟩, nofun⟩, .nil⟩⟩

/-- The `try` block returns after calls that go through, or throws at one that does not. -/
theorem accepted_ends {transfers : Table TransferRecord.id} {old : TransferRecord}
    {x : Except (Err × Transfer) Transfer} (hopen : t.status.isTerminal = false)
    (htotal : t.amount.add t.fee = .ok total) (hold : transfers.find? t.id = some old)
    (hversion : old.version = t.version) (hs : HoldsWith t.sourceAccountId balance transfers s)
    (h : Run anySchedule Meanwhile i (accepted command total events t payoutResult) s tr x s') :
    Holds t.sourceAccountId balance s' ∧ (∀ e ∈ tr, Proceeds t.sourceAccountId e.before e.after) ∧
      ((∃ t', x = .ok t' ∧ Through tr) ∨
        ∃ e t', x = .error (e, t') ∧ t'.sourceAccountId = t.sourceAccountId ∧ Stopped (fun _ => True) tr) := by
  have hmarkCalls : (markAccepted command total t payoutResult).Calls Sideline := by
    unfold markAccepted
    split
    · exact .bind (calls_during (.ofExcept _)) fun _ =>
        .bind (calls_during (postTransferJournal_calls ⟨nofun, rfl, rfl⟩
        (fun _ => ⟨nofun, rfl, rfl⟩) _ _ _)) fun _ => trivial
    · exact calls_during (.ofExcept _)
  rcases h.bind with ⟨marked, s1, tr1, tr2, h1, h2, rfl⟩ | ⟨thrown, rfl, h1⟩
  swap
  · obtain ⟨hs', ⟨_, he, -⟩ | ⟨e, t', he, hthrown⟩⟩ := markAccepted_ends hopen htotal hs h1
    · cases he
    · cases he
      exact ⟨hs'.1, fun e he => ((sideline_run h1 hmarkCalls).2 e he).proceeds, .inr ⟨e, t', rfl, hthrown⟩⟩
  have hevents1 := (sideline_run h1 hmarkCalls).2
  obtain ⟨hs1, ⟨_, he, hm, hthrough1⟩ | ⟨_, _, he, -⟩⟩ := markAccepted_ends hopen htotal hs h1
  swap
  · cases he
  cases he
  have hsave : Does Meanwhile i (HoldsWith t.sourceAccountId balance transfers)
      (· = .transfer .prisma (.updateMany (marked.version - 1) (TransferMapper.toPersistence marked))) False
      (PrismaTransferRepository.save marked) fun _ => HoldsWith t.sourceAccountId balance
        (transfers.put (TransferMapper.toPersistence marked)) := by
    have hmversion := hm.version
    refine PrismaTransferRepository.save_does (holdsWith_stable _ _ _) (by omega) (fun s2 hs2 => ?_) fun s2 hs2 => ?_
    · exact ⟨old, by rw [hs2.2, hm.id]; exact hold, by omega⟩
    · exact ⟨hs2.1.write i rfl, hs2.2 ▸ rfl⟩
  have hsaved : ∀ {s2 tr3 y},
      Run anySchedule Meanwhile i (during marked (PrismaTransferRepository.save marked)) s1 tr3 y s2 →
      ∀ e ∈ tr3, Proceeds t.sourceAccountId e.before e.after := fun h3 =>
    h3.each (calls_during (PrismaTransferRepository.save_onward hm.status)) Onward.proceeds
  have h2 : Run anySchedule Meanwhile i (during marked (PrismaTransferRepository.save marked) >>= _) s1 tr2 x s' := h2
  rcases h2.bind with ⟨_, s2, tr3, tr4, h3, h4, rfl⟩ | ⟨thrown, rfl, h3⟩
  swap
  · rcases during_run h3 with ⟨_, he, -⟩ | ⟨e, he, hrun⟩
    · cases he
    cases he
    obtain ⟨hs', hstopped⟩ := hsave.throws hs1 hrun
    refine ⟨hs'.1, fun e he => (List.mem_append.1 he).elim (fun he => (hevents1 e he).proceeds) (hsaved h3 e), ?_⟩
    refine .inr ⟨e, marked, rfl, hm.source, .append hthrough1 ?_⟩
    exact (hstopped.resolve_right fun h => h.1).mono fun _ _ _ => trivial
  rcases during_run h3 with ⟨_, -, hrun⟩ | ⟨_, he, -⟩
  swap
  · cases he
  obtain ⟨hthrough3, hs2⟩ := hsave.returns hs1 hrun
  have hpublish : Does Meanwhile i (HoldsWith t.sourceAccountId balance
      (transfers.put (TransferMapper.toPersistence marked))) Op.isPublish False
      (publishAll (events ++ marked.pullDomainEvents.1.map .transfer)) fun _ => HoldsWith t.sourceAccountId balance
        (transfers.put (TransferMapper.toPersistence marked)) := publishAll_does (holdsWith_stable _ _ _) _
  have hpublishCalls : (during marked.pullDomainEvents.2
      (publishAll (events ++ marked.pullDomainEvents.1.map .transfer)) : Program
        (Err × Transfer) Unit).Calls Sideline :=
    calls_during (publishAll_calls (fun _ => ⟨nofun, rfl, rfl⟩) _)
  have hevents : ∀ {s3 tr5 y}, Run anySchedule Meanwhile i (during marked.pullDomainEvents.2
      (publishAll (events ++ marked.pullDomainEvents.1.map .transfer))) s2 tr5 y s3 →
      ∀ e ∈ tr1 ++ (tr3 ++ tr5), Proceeds t.sourceAccountId e.before e.after := fun h5 e he => by
    simp only [List.mem_append] at he
    rcases he with he | he | he
    · exact (hevents1 e he).proceeds
    · exact hsaved h3 e he
    · exact ((sideline_run h5 hpublishCalls).2 e he).proceeds
  have h4 : Run anySchedule Meanwhile i (during marked.pullDomainEvents.2
    (publishAll (events ++ marked.pullDomainEvents.1.map .transfer)) >>= _) s2 tr4 x s' := h4
  rcases h4.bind with ⟨_, s3, tr5, tr6, h5, ⟨rfl, rfl, rfl⟩, rfl⟩ | ⟨thrown, rfl, h5⟩
  · rcases during_run h5 with ⟨_, -, hrun⟩ | ⟨_, he, -⟩
    swap
    · cases he
    obtain ⟨hthrough5, hs3⟩ := hpublish.returns hs2 hrun
    rw [List.append_nil]
    exact ⟨hs3.1, hevents h5, .inl ⟨_, rfl, hthrough1.append (hthrough3.append hthrough5)⟩⟩
  · rcases during_run h5 with ⟨_, he, -⟩ | ⟨e, he, hrun⟩
    · cases he
    cases he
    obtain ⟨hs3, hstopped⟩ := hpublish.throws hs2 hrun
    refine ⟨hs3.1, hevents h5, .inr ⟨e, _, rfl, hm.source, .append hthrough1 (.append hthrough3 ?_)⟩⟩
    exact (hstopped.resolve_right fun h => h.1).mono fun _ _ _ => trivial

end InitiateExternalTransferHandler

/-! ## The payout -/

/-- Flutterwave has taken the payout. -/
def Accepts : Event Op.Res Err Store → Prop
  | ⟨.payout _, .ok response, _, _⟩ => response.success = true ∧ response.data.isSome = true
  | _ => False

instance (e : Event Op.Res Err Store) : Decidable (Accepts e) := by
  unfold Accepts
  split <;> infer_instance

theorem Accepts.isPayout {e : Event Op.Res Err Store} (h : Accepts e) : e.op.isPayout = true := by
  obtain ⟨op, result, before, after⟩ := e
  cases op with
  | payout request => rfl
  | _ => exact h.elim

theorem FlutterwavePayoutProvider.initiatePayout_ends {i : PId} {s s' : Store} {tr : List (Event Op.Res Err Store)}
    {reference narration : String} {recipient : ExternalRecipient} {amount : Money}
    {x : Except Err PayoutInitiationResult}
    (h : Run anySchedule Meanwhile i (initiatePayout reference recipient amount narration) s tr x s') :
    ∃ payout : Event Op.Res Err Store, tr = [payout] ∧ payout.op.isPayout = true ∧ Intact s payout.before ∧
      Intact payout.before payout.after ∧ s' = payout.after ∧
      (Accepts payout ∧ (∃ result, x = .ok result) ∨ ¬ Accepts payout ∧ ∃ e, x = .error e) := by
  obtain ⟨s1, a, r, s2, rest, hs, -, hx, rfl, hrest⟩ := h.await_bind
  have hsame := Intact.of_sameRows (exec_read rfl hx)
  rcases hrest with ⟨response, rfl, hrun⟩ | ⟨e, rfl, rfl, rfl, rfl⟩
  · split at hrun
    · rename_i data hsuccess hdata
      obtain ⟨rfl, rfl, rfl⟩ := hrun
      exact ⟨_, rfl, rfl, .of_meanwhile hs, hsame, rfl, .inl ⟨⟨hsuccess, by rw [hdata]; rfl⟩, _, rfl⟩⟩
    · rename_i hrefused
      obtain ⟨rfl, rfl, rfl⟩ := hrun
      refine ⟨_, rfl, rfl, .of_meanwhile hs, hsame, rfl, .inr ⟨?_, _, rfl⟩⟩
      rintro ⟨hsuccess, hdata⟩
      obtain ⟨data, hdata⟩ := Option.isSome_iff_exists.1 hdata
      exact hrefused data hsuccess hdata
  · exact ⟨_, rfl, rfl, .of_meanwhile hs, hsame, rfl, .inr ⟨id, e, rfl⟩⟩

namespace InitiateExternalTransferHandler

variable {command : InitiateExternalTransferCommand} {i : PId} {s s' : Store} {tr : List (Event Op.Res Err Store)}
  {t : Transfer} {total balance : Money} {events : List DomainEvent} {recipient : ExternalRecipient}

theorem accepted_noPayout {payoutResult : PayoutInitiationResult} :
    (accepted command total events t payoutResult).Calls fun op => op.isPayout = false := by
  refine .bind ?_ fun _ => .bind (calls_during (PrismaTransferRepository.save_calls (fun _ => rfl) _)) fun _ =>
    .bind (calls_during (publishAll_calls (fun _ => rfl) _)) fun _ => trivial
  unfold markAccepted
  split
  · exact .bind (calls_during (.ofExcept _)) fun _ => .bind (calls_during (postTransferJournal_calls
      (T := fun op => op.isPayout = false) rfl (fun _ => rfl) _ _ _)) fun _ => trivial
  · exact calls_during (.ofExcept _)

theorem reverse_noPayout {payoutError : Err} :
    (reverse command total events payoutError t : Handler Transfer).Calls fun op => op.isPayout = false :=
  .bind (compensate_calls (T := fun op => op.isPayout = false) (fun _ => rfl) rfl (fun _ => rfl) _ _ _) fun _ =>
    .bind (.ofExcept _) fun _ => .bind (PrismaTransferRepository.save_calls (fun _ => rfl) _) fun _ =>
      .bind (publishAll_calls (fun _ => rfl) _) fun _ => trivial

/-- The payout is accepted, and the rest of the `try` block runs, with the `catch` block behind it; or it is not, and
the `catch` block runs. -/
theorem payOut_ends {x : Except Err Transfer}
    (h : Run anySchedule Meanwhile i (payOut command recipient total events t) s tr x s') :
    ∃ payout rest, tr = payout :: rest ∧ payout.op.isPayout = true ∧ (∀ e ∈ rest, e.op.isPayout = false) ∧
      Intact s payout.before ∧ Intact payout.before payout.after ∧
      (Accepts payout ∧ (∃ result, (∃ t', x = .ok t' ∧
            Run anySchedule Meanwhile i (accepted command total events t result) payout.after rest (.ok t') s') ∨
          ∃ e t' s1 tr1 tr2, rest = tr1 ++ tr2 ∧
            Run anySchedule Meanwhile i (accepted command total events t result) payout.after tr1
              (.error (e, t')) s1 ∧
            Run anySchedule Meanwhile i (reverse command total events e t' : Handler Transfer) s1 tr2 x s') ∨
        ¬ Accepts payout ∧ ∃ e, Run anySchedule Meanwhile i (reverse command total events e t : Handler Transfer)
          payout.after rest x s') := by
  have h : Run anySchedule Meanwhile i (Prog.tryCatch (during t (FlutterwavePayoutProvider.initiatePayout
    t.reference.value recipient t.amount command.narration) >>= fun result => accepted command total events t result)
    fun thrown => reverse command total events thrown.1 thrown.2) s tr x s' := h
  rcases h.tryCatch with ⟨t', rfl, h1⟩ | ⟨⟨e, t'⟩, s1, tr1, tr2, h1, h2, rfl⟩
  · rcases h1.bind with ⟨result, s2, tr3, tr4, h3, h4, rfl⟩ | ⟨e, he, -⟩
    swap
    · cases he
    rcases during_run h3 with ⟨_, -, hrun⟩ | ⟨_, he, -⟩
    swap
    · cases he
    obtain ⟨payout, rfl, hpayout, hbefore, hafter, rfl, ⟨haccepts, -⟩ | ⟨-, _, he⟩⟩ :=
      FlutterwavePayoutProvider.initiatePayout_ends hrun
    swap
    · cases he
    exact ⟨payout, tr4, rfl, hpayout, h4.calls accepted_noPayout, hbefore, hafter,
      .inl ⟨haccepts, result, .inl ⟨t', rfl, h4⟩⟩⟩
  · rcases h1.bind with ⟨result, s2, tr3, tr4, h3, h4, rfl⟩ | ⟨thrown, he, h3⟩
    · rcases during_run h3 with ⟨_, -, hrun⟩ | ⟨_, he, -⟩
      swap
      · cases he
      obtain ⟨payout, rfl, hpayout, hbefore, hafter, rfl, ⟨haccepts, -⟩ | ⟨-, _, he⟩⟩ :=
        FlutterwavePayoutProvider.initiatePayout_ends hrun
      swap
      · cases he
      exact ⟨payout, tr4 ++ tr2, rfl, hpayout,
        List.forall_mem_append.2 ⟨h4.calls accepted_noPayout, h2.calls reverse_noPayout⟩, hbefore, hafter,
        .inl ⟨haccepts, result, .inr ⟨e, t', s1, tr4, tr2, rfl, h4, h2⟩⟩⟩
    · cases he
      rcases during_run h3 with ⟨_, he, -⟩ | ⟨_, he, hrun⟩
      · cases he
      cases he
      obtain ⟨payout, rfl, hpayout, hbefore, hafter, rfl, ⟨-, _, he⟩ | ⟨hrefuses, -⟩⟩ :=
        FlutterwavePayoutProvider.initiatePayout_ends hrun
      · cases he
      exact ⟨payout, tr2, rfl, hpayout, h2.calls reverse_noPayout, hbefore, hafter, .inr ⟨hrefuses, _, h2⟩⟩

end InitiateExternalTransferHandler

/-! ## The guard -/

/-- The calls that the guard makes for itself. -/
def Op.isAside : Op → Prop
  | .idempotencyKey _ | .mark _ | .dateNow => True
  | _ => False

theorem Op.isAside.sideline {op : Op} (h : op.isAside) : Sideline op := by
  cases op with
  | idempotencyKey q => exact ⟨nofun, rfl, rfl⟩
  | mark m => exact ⟨nofun, rfl, rfl⟩
  | dateNow => exact ⟨nofun, rfl, rfl⟩
  | _ => exact h.elim

theorem Op.isAside.noPayout {op : Op} (h : op.isAside) : op.isPayout = false := by
  cases op with
  | payout request => exact h.elim
  | _ => rfl

theorem Op.isAside.offBooks {op : Op} (h : op.isAside) : ¬ op.onBooks := by
  cases op with
  | ledgerEntry c q => exact h.elim
  | transfer c q => exact h.elim
  | _ => exact id

theorem aside_run {i : PId} {ε α : Type} {p : Program ε α} {s s' : Store} {tr : List (Event Op.Res Err Store)}
    {x : Except ε α} (h : Run anySchedule Meanwhile i p s tr x s') (hp : p.Calls Op.isAside) :
    Intact s s' ∧ ∀ e ∈ tr, Intact e.before e.after ∧ e.op.isAside := by
  obtain ⟨hintact, hevents⟩ := sideline_run h (hp.mono fun _ => Op.isAside.sideline)
  exact ⟨hintact, fun e he => ⟨hevents e he, h.calls hp e he⟩⟩

theorem aside_await {i : PId} {op : Op} {s s' : Store} {tr : List (Event Op.Res Err Store)} {r : Except Err op.Res}
    (h : Run anySchedule Meanwhile i (Prog.await op) s tr r s') (hop : op.isAside) :
    ∃ e : Event Op.Res Err Store, tr = [e] ∧ Intact s s' ∧ (Intact e.before e.after ∧ e.op.isAside) ∧
      ((∃ v, r = .ok v) → e.rejected = false) := by
  obtain ⟨s1, a, hs, -, hx, rfl⟩ := h.await
  have hsame := hop.sideline.intact hx
  refine ⟨_, rfl, (Intact.of_meanwhile hs).trans hsame, ⟨hsame, hop⟩, ?_⟩
  rintro ⟨v, rfl⟩
  rfl

/-- At most one call follows one that was rejected. -/
def EndsThere (tr : List (Event Op.Res Err Store)) : Prop :=
  ∀ done failed after, tr = done ++ failed :: after → failed.rejected = true → after.length ≤ 1

theorem endsThere_of_length {tr : List (Event Op.Res Err Store)} (h : tr.length ≤ 2) : EndsThere tr := by
  rintro done failed after rfl -
  rw [List.length_append, List.length_cons] at h
  omega

theorem EndsThere.cons {e : Event Op.Res Err Store} {tr : List (Event Op.Res Err Store)} (he : e.rejected = false)
    (h : EndsThere tr) : EndsThere (e :: tr) := by
  intro done failed after heq hfailed
  cases done with
  | nil =>
    cases heq
    rw [he] at hfailed
    cases hfailed
  | cons d done =>
    cases heq
    exact h done failed after rfl hfailed

/-- `o.execute` in the run of a guarded operation, and what the guard does before and after it. -/
structure Guarded {α : Type} (i : PId) (o : Operation α) (s : Store) (tr : List (Event Op.Res Err Store))
    (s' : Store) (pre body post : List (Event Op.Res Err Store)) (y : Except Err (String × α))
    (s1 s2 : Store) : Prop where
  trace : tr = pre ++ (body ++ post)
  before : Intact s s1
  runs : Run anySchedule Meanwhile i o.execute s1 body y s2
  after : Intact s2 s'
  aside : ∀ e ∈ pre ++ post, Intact e.before e.after ∧ e.op.isAside
  ends : EndsThere post

namespace Guarded

variable {α : Type} {i : PId} {o : Operation α} {s s' s1 s2 : Store} {y : Except Err (String × α)}
  {tr pre body post pre' rest' before rest : List (Event Op.Res Err Store)} {payout payout' : Event Op.Res Err Store}

theorem forall_trace {P : Event Op.Res Err Store → Prop} (h : Guarded i o s tr s' pre body post y s1 s2)
    (hbody : ∀ e ∈ body, P e) (haside : ∀ e : Event Op.Res Err Store, Intact e.before e.after →
      e.op.isAside → P e) :
    ∀ e ∈ tr, P e := by
  intro e he
  rw [h.trace, List.mem_append, List.mem_append] at he
  rcases he with he | he | he
  · exact (h.aside e (List.mem_append_left _ he)).elim (haside e)
  · exact hbody e he
  · exact (h.aside e (List.mem_append_right _ he)).elim (haside e)

theorem noPayout (h : Guarded i o s tr s' pre body post y s1 s2) (hbody : ∀ e ∈ body, e.op.isPayout = false) :
    ∀ e ∈ tr, e.op.isPayout = false := h.forall_trace hbody fun _ _ => Op.isAside.noPayout

/-- There is only one payout in the run. -/
theorem only_payout (h : Guarded i o s tr s' pre (pre' ++ payout' :: rest') post y s1 s2)
    (hpre : ∀ e ∈ pre', e.op.isPayout = false) (hrest : ∀ e ∈ rest', e.op.isPayout = false)
    (htr : tr = before ++ payout :: rest) (hpayout : payout.op.isPayout = true) :
    payout' = payout ∧ rest' ++ post = rest := by
  have heq : (pre ++ pre') ++ payout' :: (rest' ++ post) = before ++ payout :: rest := by
    rw [← htr, h.trace]
    simp
  have hnotIn : ∀ {tr : List (Event Op.Res Err Store)}, (∀ e ∈ tr, e.op.isPayout = false) → payout ∉ tr := by
    intro tr h hmem
    have hnone := h payout hmem
    rw [hpayout] at hnone
    cases hnone
  refine ((List.append_cons_inj_of_notMem (hnotIn ?_) (hnotIn ?_)).1 heq).2
  · exact List.forall_mem_append.2 ⟨fun e he => (h.aside e (List.mem_append_left _ he)).2.noPayout, hpre⟩
  · exact List.forall_mem_append.2 ⟨hrest, fun e he => (h.aside e (List.mem_append_right _ he)).2.noPayout⟩

end Guarded

namespace IdempotencyGuardService

variable {α : Type} {i : PId} {o : Operation α} {s s' : Store} {tr : List (Event Op.Res Err Store)}

open PrismaIdempotencyKeyRepository

theorem observed_ends {claim : ClaimKey} {x : Except Err (String × α)}
    (h : Run anySchedule Meanwhile i (o.observed claim) s tr x s') :
    ((∃ e, x = .error e) ∧ Intact s s' ∧ ∀ e ∈ tr, Intact e.before e.after ∧ e.op.isAside) ∨
      ∃ invoked body ended y s1 s2, tr = invoked :: (body ++ [ended]) ∧ Intact s s1 ∧
        Run anySchedule Meanwhile i o.execute s1 body y s2 ∧ Intact s2 s' ∧
        (Intact invoked.before invoked.after ∧ invoked.op.isAside) ∧
        (Intact ended.before ended.after ∧ ended.op.isAside) ∧
        ((∃ e, x = .error e) ∨ ended.rejected = false ∧ y = x) := by
  have h : Run anySchedule Meanwhile i (Prog.await (Op.mark (.invoked claim)) >>= fun _ =>
    (o.execute.tryCatch fun error => Prog.await (Op.mark (.rejected claim)) >>= fun _ => Prog.throw error) >>=
      fun result => Prog.await (Op.mark (.resolved claim result.1)) >>= fun _ => Prog.pure result) s tr x s' := h
  rcases h.bind with ⟨_, s1, tr1, tr2, h1, h2, rfl⟩ | ⟨e, rfl, h1⟩
  swap
  · obtain ⟨invoked, rfl, hintact, hinvoked, -⟩ := aside_await h1 trivial
    exact .inl ⟨⟨e, rfl⟩, hintact, by simpa using hinvoked⟩
  obtain ⟨invoked, rfl, hbefore, hinvoked, -⟩ := aside_await h1 trivial
  rcases h2.bind with ⟨result, s2, tr3, tr4, h3, h4, rfl⟩ | ⟨e, rfl, h3⟩
  · rcases h3.tryCatch with ⟨_, he, hexecute⟩ | ⟨error, s3, tr5, tr6, -, h5, -⟩
    · cases he
      rcases h4.bind with ⟨_, s3, tr5, tr6, h5, ⟨rfl, rfl, rfl⟩, rfl⟩ | ⟨e, rfl, h5⟩
      · obtain ⟨ended, rfl, hafter, hended, hthrough⟩ := aside_await h5 trivial
        exact .inr ⟨invoked, tr3, ended, _, s1, s2, rfl, hbefore, hexecute, hafter, hinvoked, hended,
          .inr ⟨hthrough ⟨_, rfl⟩, rfl⟩⟩
      · obtain ⟨ended, rfl, hafter, hended, -⟩ := aside_await h5 trivial
        exact .inr ⟨invoked, tr3, ended, _, s1, s2, rfl, hbefore, hexecute, hafter, hinvoked, hended,
          .inl ⟨e, rfl⟩⟩
    · rcases h5.bind with ⟨_, _, _, _, -, ⟨-, he, -⟩, -⟩ | ⟨_, he, -⟩
      · cases he
      · cases he
  · rcases h3.tryCatch with ⟨_, he, -⟩ | ⟨error, s2, tr3, tr4, hexecute, h4, rfl⟩
    · cases he
    · rcases h4.bind with ⟨_, s3, tr5, tr6, h5, ⟨rfl, -, rfl⟩, rfl⟩ | ⟨_, -, h5⟩
      · obtain ⟨ended, rfl, hafter, hended, -⟩ := aside_await h5 trivial
        exact .inr ⟨invoked, tr3, ended, _, s1, s2, rfl, hbefore, hexecute, hafter, hinvoked, hended,
          .inl ⟨e, rfl⟩⟩
      · obtain ⟨ended, rfl, hafter, hended, -⟩ := aside_await h5 trivial
        exact .inr ⟨invoked, tr3, ended, _, s1, s2, rfl, hbefore, hexecute, hafter, hinvoked, hended,
          .inl ⟨e, rfl⟩⟩

/-- The operation is executed within a run of the guard, or no account and no transfer is saved. -/
theorem run_ends {userId scope : String} {key : Option String} {fuel : Nat} {x : Except Err α}
    (hr : ∀ resourceId, (o.rehydrate resourceId).Calls fun op => Sideline op ∧ op.isPayout = false)
    (h : Run anySchedule Meanwhile i (run userId scope key fuel o) s tr x s') :
    (Intact s s' ∧ ∀ e ∈ tr, Intact e.before e.after ∧ e.op.isPayout = false) ∨
      ∃ pre body post y s1 s2, Guarded i o s tr s' pre body post y s1 s2 := by
  have hbare : ∀ {x : Except Err α}, Run anySchedule Meanwhile i (do return (← o.execute).2) s tr x s' →
      ∃ pre body post y s1 s2, Guarded i o s tr s' pre body post y s1 s2 := fun h => by
    rcases h.bind with ⟨result, s1, tr1, tr2, h1, ⟨rfl, rfl, rfl⟩, rfl⟩ | ⟨e, rfl, h1⟩
    · exact ⟨[], tr1, [], _, s, s', rfl, .refl s, h1, .refl s', by simp, endsThere_of_length (Nat.zero_le 2)⟩
    · exact ⟨[], tr, [], _, s, s', by simp, .refl s, h1, .refl s', by simp, endsThere_of_length (Nat.zero_le 2)⟩
  unfold run at h
  split at h
  · exact .inr (hbare h)
  · exact .inr (hbare h)
  rename_i key _
  rcases h.bind with ⟨acquisition, s1, tr1, tr2, h1, h2, rfl⟩ | ⟨e, rfl, h1⟩
  swap
  · obtain ⟨hintact, hevents⟩ := aside_run h1 (tryAcquire_calls (fun _ => trivial) trivial _ _)
    exact .inl ⟨hintact, fun e he => ⟨(hevents e he).1, (hevents e he).2.noPayout⟩⟩
  obtain ⟨hintact, hevents⟩ := aside_run h1 (tryAcquire_calls (fun _ => trivial) trivial _ _)
  cases acquisition with
  | COMPLETED resourceId =>
    have hcalls := (hr resourceId).mono fun _ h => h.1
    obtain ⟨hintact', hevents'⟩ := sideline_run h2 hcalls
    refine .inl ⟨hintact.trans hintact', fun e he => (List.mem_append.1 he).elim (fun he => ?_) fun he => ?_⟩
    · exact ⟨(hevents e he).1, (hevents e he).2.noPayout⟩
    · exact ⟨hevents' e he, (h2.calls (hr resourceId) e he).2⟩
  | IN_PROGRESS =>
    obtain ⟨rfl, rfl, rfl⟩ := h2
    refine .inl ⟨hintact, fun e he => ?_⟩
    rw [List.append_nil] at he
    exact ⟨(hevents e he).1, (hevents e he).2.noPayout⟩
  | ACQUIRED =>
    have h2 : Run anySchedule Meanwhile i (Prog.tryCatch (o.observed ⟨userId, scope, key⟩ >>= fun result => do
        markCompleted ⟨userId, scope, key⟩ result.1
        return result.2) fun error => do
          release ⟨userId, scope, key⟩
          Prog.throw error) s1 tr2 x s' := h2
    have hpre : ∀ {invoked ended : List (Event Op.Res Err Store)},
        (∀ e ∈ invoked, Intact e.before e.after ∧ e.op.isAside) →
        (∀ e ∈ ended, Intact e.before e.after ∧ e.op.isAside) →
        ∀ e ∈ tr1 ++ invoked ++ ended, Intact e.before e.after ∧ e.op.isAside := fun hinvoked hended e he => by
      rw [List.mem_append, List.mem_append] at he
      exact he.elim (fun he => he.elim (hevents e) (hinvoked e)) (hended e)
    rcases h2.tryCatch with ⟨v, rfl, h3⟩ | ⟨e, s2, tr3, tr4, h3, h4, rfl⟩
    · rcases h3.bind with ⟨result, s2, tr3, tr4, h4, h5, rfl⟩ | ⟨e, he, -⟩
      swap
      · cases he
      rcases h5.bind with ⟨_, s3, tr5, tr6, h6, ⟨rfl, he, rfl⟩, rfl⟩ | ⟨e, he, -⟩
      swap
      · cases he
      cases he
      obtain ⟨completed, rfl, hafter, hcompleted, -⟩ := aside_await h6 trivial
      rcases observed_ends h4 with ⟨⟨e, he⟩, -⟩ |
        ⟨invoked, body, ended, y, s4, s5, rfl, hbefore, hruns, hbetween, hinvoked, hended, hy⟩
      · cases he
      obtain ⟨e, he⟩ | ⟨-, rfl⟩ := hy
      · cases he
      refine .inr ⟨tr1 ++ [invoked], body, [ended, completed], _, s4, s5, by simp, hintact.trans hbefore, hruns,
        hbetween.trans hafter, hpre (by simpa using hinvoked) ?_, endsThere_of_length le_rfl⟩
      simpa using ⟨hended, hcompleted⟩
    · have hreleased : Intact s2 s' ∧ ∃ released : Event Op.Res Err Store, tr4 = [released] ∧
          Intact released.before released.after ∧ released.op.isAside := by
        rcases h4.bind with ⟨_, s3, tr5, tr6, h5, ⟨rfl, rfl, rfl⟩, rfl⟩ | ⟨e, rfl, h5⟩
        · obtain ⟨released, rfl, hafter, hreleased, -⟩ := aside_await h5 trivial
          exact ⟨hafter, released, rfl, hreleased⟩
        · obtain ⟨released, rfl, hafter, hreleased, -⟩ := aside_await h5 trivial
          exact ⟨hafter, released, rfl, hreleased⟩
      obtain ⟨hafter, released, rfl, hreleased⟩ := hreleased
      rcases h3.bind with ⟨result, s3, tr5, tr6, h5, h6, rfl⟩ | ⟨_, he, h5⟩
      · rcases h6.bind with ⟨_, _, _, _, -, ⟨-, he, -⟩, -⟩ | ⟨_, he, h7⟩
        · cases he
        cases he
        obtain ⟨completed, rfl, hbetween', hcompleted, -⟩ := aside_await h7 trivial
        rcases observed_ends h5 with ⟨⟨e, he⟩, -⟩ |
          ⟨invoked, body, ended, y, s4, s5, rfl, hbefore, hruns, hbetween, hinvoked, hended, hy⟩
        · cases he
        obtain ⟨e, he⟩ | ⟨hthrough, rfl⟩ := hy
        · cases he
        refine .inr ⟨tr1 ++ [invoked], body, [ended, completed, released], _, s4, s5, by simp, hintact.trans hbefore,
          hruns, hbetween.trans (hbetween'.trans hafter), hpre (by simpa using hinvoked) ?_,
          .cons hthrough (endsThere_of_length le_rfl)⟩
        simpa using ⟨hended, hcompleted, hreleased⟩
      · cases he
        rcases observed_ends h5 with ⟨-, hintact', hevents'⟩ |
          ⟨invoked, body, ended, y, s4, s5, rfl, hbefore, hruns, hbetween, hinvoked, hended, hy⟩
        · refine .inl ⟨hintact.trans (hintact'.trans hafter), fun e he => ?_⟩
          have he : e ∈ tr1 ++ tr3 ++ [released] := by simpa using he
          have haside := hpre hevents' (by simpa using hreleased) e he
          exact ⟨haside.1, haside.2.noPayout⟩
        · refine .inr ⟨tr1 ++ [invoked], body, [ended, released], _, s4, s5, by simp, hintact.trans hbefore, hruns,
            hbetween.trans hafter, hpre (by simpa using hinvoked) ?_, endsThere_of_length le_rfl⟩
          simpa using ⟨hended, hreleased⟩

end IdempotencyGuardService

/-! ## The whole command -/

namespace InitiateExternalTransferHandler

variable {command : InitiateExternalTransferCommand} {i : PId} {s s' : Store} {tr : List (Event Op.Res Err Store)}
  {t : Transfer} {total balance : Money} {events : List DomainEvent} {recipient : ExternalRecipient} {α : Type}

/-- The `catch` block credits the account, or nothing is done. -/
theorem reverse_credits {transfers : Table TransferRecord.id} {payoutError : Err} {x : Except Err α}
    (hheld : HoldsWith t.sourceAccountId balance transfers s) (hcurrency : total.currency = balance.currency)
    (hpositive : 0 < total.minorUnits)
    (h : Run anySchedule Meanwhile i (reverse command total events payoutError t : Handler α) s tr x s') :
    (∀ rest, ¬ CreditsBack t.sourceAccountId (tr ++ rest)) ∧ (∀ e ∈ tr, Intact e.before e.after) ∧
        Holds t.sourceAccountId balance s' ∨
      (∀ rest, CreditsBack t.sourceAccountId (tr ++ rest)) ∧ ∃ e ∈ tr, Moves t.sourceAccountId e := by
  rcases h.bind with ⟨accountEvents, s1, tr1, tr2, h1, -, rfl⟩ | ⟨e, rfl, h1⟩
  · rcases compensate_ends hheld hcurrency hpositive h1 with ⟨⟨e, he⟩, -⟩ |
      ⟨load, update, journal, rfl, hcredits, hmoves, -⟩
    · cases he
    · refine .inr ⟨fun rest => ?_, update, by simp, hmoves⟩
      rw [List.append_assoc]
      exact hcredits _
  · rcases compensate_ends hheld hcurrency hpositive h1 with ⟨-, hs', hevents, hrefused⟩ |
      ⟨load, update, journal, rfl, hcredits, hmoves, -⟩
    · exact .inl ⟨hrefused, hevents, hs'.1⟩
    · exact .inr ⟨hcredits, update, by simp, hmoves⟩

/-- What the payout finds: the hold, and the PENDING row of `t`. -/
structure Recorded (command : InitiateExternalTransferCommand) (balance total : Money) (t : Transfer)
    (row : TransferRecord) (s s' : Store) : Prop where
  charged : ∃ amount fee, Charged command s balance amount fee total
  enough : total.minorUnits ≤ balance.minorUnits
  summed : t.amount.add t.fee = .ok total
  source : t.sourceAccountId = command.sourceAccountId
  open_ : t.status.isTerminal = false
  id : row.id = t.id
  version : row.version = t.version
  pending : row.status = .PENDING
  fresh : s.db.transfers.find? t.id = none
  holds : HoldsWith t.sourceAccountId ⟨balance.minorUnits - total.minorUnits, balance.currency⟩
    (s.db.transfers.put row) s'

/-- The payout is reached, or the saga has thrown before: without the hold, or with it. -/
theorem doExecute_ends {x : Except Err (String × TransferResponseDto)}
    (h : Run anySchedule Meanwhile i (doExecute command) s tr x s') :
    (∀ e ∈ tr, e.op.isPayout = false) ∧ (Intact s s' ∧ (∀ e ∈ tr, ¬ Moves command.sourceAccountId e) ∨
        s'.funds command.sourceAccountId ≠ s.funds command.sourceAccountId ∧
          ∃ e ∈ tr, Moves command.sourceAccountId e) ∨
      ∃ pre paying events recipient t row balance total s1 y, tr = pre ++ paying ∧
        (∀ e ∈ pre, e.op.isPayout = false) ∧
        (∃ e ∈ pre, Moves command.sourceAccountId e) ∧ Recorded command balance total t row s s1 ∧
        Run anySchedule Meanwhile i (payOut command recipient total events t) s1 paying y s' := by
  have hholdCalls : (hold command).Calls fun op => op.isPayout = false :=
    hold_calls (T := fun op => op.isPayout = false) (fun _ => rfl) (fun _ => rfl) rfl (fun _ _ _ => rfl) command
  have hrecordCalls : ∀ source recipient amount fee total, (record command source recipient amount fee total).Calls
      fun op => op.isPayout = false := fun _ _ _ _ _ =>
    .bind (draw_calls (T := fun op => op.isPayout = false) rfl rfl rfl _) fun _ =>
      .bind (PrismaTransferRepository.save_calls (fun _ => rfl) _) fun _ =>
        .bind (postTransferJournal_calls (T := fun op => op.isPayout = false) rfl (fun _ => rfl) _ _ _) fun _ => trivial
  have h : Run anySchedule Meanwhile i (hold command >>= fun held => record command held.1 held.2.1 held.2.2.1
    held.2.2.2.1 held.2.2.2.2 >>= fun t => payOut command held.2.1 held.2.2.2.2
      (held.1.pullDomainEvents.1.map .account ++ t.pullDomainEvents.1.map .transfer) t.pullDomainEvents.2 >>= fun t =>
        Prog.pure (t.id, TransferResponseDto.fromDomain t)) s tr x s' := h
  rcases h.bind with ⟨⟨source, recipient, amount, fee, total⟩, s1, tr1, tr2, h1, h2, rfl⟩ | ⟨e, rfl, h1⟩
  swap
  · rcases hold_ends h1 with ⟨-, hintact, hevents⟩ | ⟨_, _, _, _, _, _, he, -⟩
    · exact .inl ⟨h1.calls hholdCalls, .inl ⟨hintact, hevents⟩⟩
    · cases he
  obtain ⟨⟨e, he⟩, -⟩ | ⟨_, _, _, _, _, balance, he, htaken, held, hheld, hmoves⟩ := hold_ends h1
  · cases he
  cases he
  rcases h2.bind with ⟨t, s2, tr3, tr4, h3, h4, rfl⟩ | ⟨e, rfl, h3⟩
  swap
  · obtain ⟨hs', -⟩ := record_ends htaken.held h3
    refine .inl ⟨?_, .inr ⟨?_, held, List.mem_append_left _ hheld, hmoves⟩⟩
    · exact List.forall_mem_append.2 ⟨h1.calls hholdCalls, h3.calls (hrecordCalls _ _ _ _ _)⟩
    · have hpositive := htaken.positive
      have henough := htaken.enough
      rw [hs'.funds, htaken.funds]
      simp only [ne_eq, Option.some.injEq, Prod.mk.injEq, and_true]
      omega
  obtain ⟨hs2, ⟨e, he⟩ | ⟨now, reference, id, he, hfresh, htransfers⟩⟩ := record_ends htaken.held h3
  · cases he
  cases he
  rw [htaken.transfers] at hfresh htransfers
  have hpre : ∀ e ∈ tr1 ++ tr3, e.op.isPayout = false :=
    List.forall_mem_append.2 ⟨h1.calls hholdCalls, h3.calls (hrecordCalls _ _ _ _ _)⟩
  have hrecorded : Recorded command balance total (Transfer.initiateExternal now reference id command.initiatorUserId
      command.sourceAccountId recipient amount fee command.narration).pullDomainEvents.2
      (TransferMapper.toPersistence (Transfer.initiateExternal now reference id command.initiatorUserId
        command.sourceAccountId recipient amount fee command.narration)) s s2 :=
    ⟨⟨amount, fee, htaken.toCharged⟩, htaken.enough, htaken.summed, rfl, rfl, rfl, rfl, rfl, hfresh, hs2,
      htransfers⟩
  rcases h4.bind with ⟨t', s3, tr5, tr6, h5, ⟨rfl, rfl, rfl⟩, rfl⟩ | ⟨e, rfl, h5⟩
  · exact .inr ⟨tr1 ++ tr3, tr5, _, recipient, _, _, balance, total, s2, _, by simp, hpre,
      ⟨held, by simp [hheld], hmoves⟩, hrecorded, h5⟩
  · exact .inr ⟨tr1 ++ tr3, tr4, _, recipient, _, _, balance, total, s2, _, by simp, hpre,
      ⟨held, by simp [hheld], hmoves⟩, hrecorded, h5⟩

/-! ### Accepted payouts -/

/-- After an accepted payout nothing is credited to the account and nothing reversed: amount and fee stay taken. -/
structure Kept (command : InitiateExternalTransferCommand) (s : Store) (rest : List (Event Op.Res Err Store))
    (s' : Store) : Prop where
  forward : ∀ e ∈ rest, Proceeds command.sourceAccountId e.before e.after
  debited : ∃ balance amount fee total, Charged command s balance amount fee total ∧
    s'.funds command.sourceAccountId = some ((balance.minorUnits : Int) - total.minorUnits, balance.currency)

theorem Charged.of_intact {s1 : Store} {amount fee : Money} (h : Charged command s1 balance amount fee total)
    (hs : Intact s s1) : Charged command s balance amount fee total :=
  ⟨(hs.funds _).symm.trans h.funds, h.parsed, h.charged, h.summed⟩

end InitiateExternalTransferHandler

/-- A call is rejected, the first to be, and the compensation that follows credits the account. -/
def Caught (id : String) (rest : List (Event Op.Res Err Store)) : Prop :=
  ∃ done failed after, rest = done ++ failed :: after ∧ Through done ∧ failed.rejected = true ∧
    CreditsBack id after

section
variable {id : String} {e failed : Event Op.Res Err Store} {done after rest post : List (Event Op.Res Err Store)}

theorem caught_cons : Caught id (e :: rest) ↔
    e.rejected = true ∧ CreditsBack id rest ∨ e.rejected = false ∧ Caught id rest := by
  constructor
  · rintro ⟨done, failed, after, heq, hdone, hfailed, h⟩
    cases done with
    | nil =>
      cases heq
      exact .inl ⟨hfailed, h⟩
    | cons d done =>
      cases heq
      obtain ⟨hd, hdone⟩ := List.forall_mem_cons.1 hdone
      exact .inr ⟨hd, done, failed, after, rfl, hdone, hfailed, h⟩
  · rintro (⟨he, h⟩ | ⟨he, done, failed, after, rfl, hdone, h⟩)
    · exact ⟨[], e, rest, rfl, .nil, he, h⟩
    · exact ⟨e :: done, failed, after, rfl, hdone.cons he, h⟩

/-- What comes after the first call that is rejected decides. -/
theorem caught_iff (hdone : Through done) (hfailed : failed.rejected = true) :
    Caught id (done ++ failed :: after) ↔ CreditsBack id after := by
  induction done with
  | nil => simp [caught_cons, hfailed]
  | cons d done ih =>
    obtain ⟨hd, hdone⟩ := List.forall_mem_cons.1 hdone
    rw [List.cons_append, caught_cons, hd, ih hdone]
    simp

theorem not_caught_of_through (hrest : Through rest) (hpost : EndsThere post) : ¬ Caught id (rest ++ post) := by
  induction rest with
  | nil =>
    rintro ⟨done, failed, after, rfl, -, hfailed, load, update, more, row, rfl, -⟩
    have hlength := hpost done failed _ rfl hfailed
    simp at hlength
  | cons e rest ih =>
    obtain ⟨he, hrest⟩ := List.forall_mem_cons.1 hrest
    rw [List.cons_append, caught_cons, he]
    simp [ih hrest]

end

open InitiateExternalTransferHandler in
/-- **An accepted payout is kept unless a later call is rejected and the compensation credits the account.** -/
theorem accepted_payout_kept_iff {fuel : Nat} {command : InitiateExternalTransferCommand} {i : PId} {s s' : Store}
    {before rest : List (Event Op.Res Err Store)} {payout : Event Op.Res Err Store}
    {x : Except Err TransferResponseDto} (haccepts : Accepts payout)
    (hrun : Run anySchedule Meanwhile i (execute fuel command) s (before ++ payout :: rest) x s') :
    Kept command s rest s' ↔ ¬ Caught command.sourceAccountId rest := by
  have hrehydrate : ∀ resourceId, (rehydrateTransfer resourceId).Calls fun op => Sideline op ∧
    op.isPayout = false :=
    rehydrateTransfer_calls fun _ => ⟨⟨nofun, rfl, rfl⟩, rfl⟩
  have hnowhere : ¬ ∀ e ∈ before ++ payout :: rest, e.op.isPayout = false := fun hnone => by
    have hpayout := hnone payout (by simp)
    rw [haccepts.isPayout] at hpayout
    cases hpayout
  rcases IdempotencyGuardService.run_ends hrehydrate hrun with ⟨-, hevents⟩ | ⟨pre, body, post, y, s1, s2, hg⟩
  · exact absurd (fun e he => (hevents e he).2) hnowhere
  rcases doExecute_ends hg.runs with ⟨hnone, -⟩ |
    ⟨pre', paying, events, recipient, t, row, balance, total, s3, y', rfl, hnone, -, hrecorded, hpay⟩
  · exact absurd (hg.noPayout hnone) hnowhere
  obtain ⟨payout', rest', rfl, hpayout, hnone', hbefore, hafter, hcases⟩ := payOut_ends hpay
  obtain ⟨rfl, rfl⟩ := hg.only_payout hnone hnone' rfl haccepts.isPayout
  have hheld : HoldsWith t.sourceAccountId ⟨balance.minorUnits - total.minorUnits, balance.currency⟩
      (s1.db.transfers.put row) payout'.after :=
    ⟨(hbefore.trans hafter).holds _ _ hrecorded.holds.1, (hbefore.trans hafter).transfers.trans hrecorded.holds.2⟩
  have hpost : ∀ e ∈ post, Proceeds command.sourceAccountId e.before e.after := fun e he =>
    (hg.aside e (List.mem_append_right _ he)).1.proceeds
  have hkept : (∀ e ∈ rest', Proceeds command.sourceAccountId e.before e.after) →
      Holds t.sourceAccountId ⟨balance.minorUnits - total.minorUnits, balance.currency⟩ s2 →
      Kept command s (rest' ++ post) s' := fun hforward hs2 => by
    obtain ⟨amount, fee, hcharged⟩ := hrecorded.charged
    refine ⟨List.forall_mem_append.2 ⟨hforward, hpost⟩, balance, amount, fee, total,
      hcharged.of_intact hg.before, ?_⟩
    rw [hg.after.funds, ← hrecorded.source, hs2.funds, ← Nat.cast_sub hrecorded.enough]
  have hold : (s1.db.transfers.put row).find? t.id = some row := hrecorded.id ▸ Table.find?_put_self _ row
  rcases hcases with ⟨-, result, ⟨t', rfl, haccepted⟩ | ⟨e, t', s4, tr1, tr2, rfl, haccepted,
    hreverse⟩⟩ | ⟨hrefused, -⟩
  · obtain ⟨hs2, hforward, ⟨_, -, hthrough⟩ | ⟨_, _, he, -⟩⟩ :=
      accepted_ends hrecorded.open_ hrecorded.summed hold hrecorded.version hheld haccepted
    · exact iff_of_true (hkept (hrecorded.source ▸ hforward) hs2) (not_caught_of_through hthrough hg.ends)
    · cases he
  · obtain ⟨hs4, hforward, ⟨_, he, -⟩ | ⟨_, _, he, hsource, done, failed, rfl, hdone, hfailed, -⟩⟩ :=
      accepted_ends hrecorded.open_ hrecorded.summed hold hrecorded.version hheld haccepted
    · cases he
    cases he
    obtain ⟨amount, fee, hcharged⟩ := hrecorded.charged
    have htail : done ++ [failed] ++ tr2 ++ post = done ++ failed :: (tr2 ++ post) := by simp
    have hcaught : Caught command.sourceAccountId (done ++ [failed] ++ tr2 ++ post) ↔
        CreditsBack t'.sourceAccountId (tr2 ++ post) := by
      rw [htail, caught_iff hdone hfailed, ← hrecorded.source, ← hsource]
    rw [hcaught]
    rw [← hsource] at hs4
    rcases reverse_credits ⟨hs4, rfl⟩ hcharged.currency hcharged.positive hreverse with
      ⟨hrefused, hintact, hs2⟩ | ⟨hcredits, e, he, hmoves⟩
    · refine iff_of_true (hkept (List.forall_mem_append.2 ⟨?_, ?_⟩) (hsource ▸ hs2)) (hrefused post)
      · exact hrecorded.source ▸ hforward
      · exact fun e he => (hintact e he).proceeds
    · refine iff_of_false (fun hkept => ?_) (not_not_intro (hcredits post))
      rw [hsource, hrecorded.source] at hmoves
      exact hmoves (hkept.forward e (by simp [he])).1
  · exact absurd haccepts hrefused

/-- ₦50.00 to another bank, from an account with ₦100.00. -/
def sampleCommand : InitiateExternalTransferCommand :=
  ⟨"user", "acc", "044", "0123456780", "Ada", "50.00", "rent", none⟩

def samplePool : Store := .init (.of [sampleAccount] []) 0

/-- Up to the payout everything goes through. -/
def sampleUntilPayout : List Ans :=
  [.ok, .ok, .ok, .ok, .ok, .ok, .ok, .uuid "t", .reference sampleReference, .ok, .uuid "j", .ok, .ok]

def sampleQueued : Ans := .payout ⟨true, "queued", some ⟨7, .PENDING⟩⟩

theorem accepts_at {n : Nat} {tr : List (Event Op.Res Err Store)}
    (h : (tr.drop n).head?.any fun e => decide (Accepts e)) :
    ∃ payout, tr = tr.take n ++ payout :: tr.drop (n + 1) ∧ Accepts payout := by
  cases hdrop : tr.drop n with
  | nil => simp [hdrop] at h
  | cons payout rest =>
    refine ⟨payout, ?_, by simpa [hdrop] using h⟩
    rw [← List.tail_drop, hdrop, List.tail_cons, ← hdrop, List.take_append_drop]

/-- The transfer is saved and published: ₦40.00 are left. -/
theorem accepted_payout_kept_iff_sample : ∃ before payout rest x s', Accepts payout ∧
    Run anySchedule Meanwhile 0 (InitiateExternalTransferHandler.execute 0 sampleCommand) samplePool
      (before ++ payout :: rest) x s' ∧ s'.funds "acc" = some (4000, .NGN) ∧
    (InitiateExternalTransferHandler.Kept sampleCommand samplePool rest s' ↔
      ¬ Caught sampleCommand.sourceAccountId rest) := by
  have hplay : (playRun anySchedule 0 (sampleUntilPayout ++ [sampleQueued, .ok, .ok, .ok])
      (InitiateExternalTransferHandler.execute 0 sampleCommand) samplePool).any fun r =>
      (r.1.drop 13).head?.any (fun e => decide (Accepts e)) ∧ r.2.2.funds "acc" = some (4000, .NGN) := by
    decide +kernel
  obtain ⟨tr, x, s', hrun, haccepts, hfunds⟩ := playRun_seen (Q := fun tr _ s' =>
    (tr.drop 13).head?.any (fun e => decide (Accepts e)) ∧ s'.funds "acc" = some (4000, .NGN)) hplay
  obtain ⟨payout, htr, haccepts⟩ := accepts_at haccepts
  have hrun : Run anySchedule Meanwhile 0 _ samplePool tr _ s' := run_of_play (fun _ => .refl) hrun
  rw [htr] at hrun
  exact ⟨_, payout, _, x, s', haccepts, hrun, hfunds, accepted_payout_kept_iff haccepts hrun⟩

/-- The save after an accepted payout is rejected: the customer has the ₦60.00 back, and the payout is on its way. -/
theorem accepted_payout_credited_back : ∃ before payout rest x s', Accepts payout ∧
    Run anySchedule Meanwhile 0 (InitiateExternalTransferHandler.execute 0 sampleCommand) samplePool
      (before ++ payout :: rest) x s' ∧ s'.funds "acc" = some (10000, .NGN) ∧
    ¬ InitiateExternalTransferHandler.Kept sampleCommand samplePool rest s' := by
  have hplay : (playRun anySchedule 0 (sampleUntilPayout ++
      [sampleQueued, .fail connectionLost, .ok, .ok, .uuid "k", .ok, .ok, .ok, .ok])
      (InitiateExternalTransferHandler.execute 0 sampleCommand) samplePool).any fun r =>
      (r.1.drop 13).head?.any (fun e => decide (Accepts e)) ∧ r.2.2.funds "acc" = some (10000, .NGN) ∧
        ∃ e ∈ r.1.drop 14, e.after.funds "acc" ≠ e.before.funds "acc" := by
    decide +kernel
  obtain ⟨tr, x, s', hrun, haccepts, hfunds, e, he, hmoves⟩ := playRun_seen (Q := fun tr _ s' =>
    (tr.drop 13).head?.any (fun e => decide (Accepts e)) ∧ s'.funds "acc" = some (10000, .NGN) ∧
      ∃ e ∈ tr.drop 14, e.after.funds "acc" ≠ e.before.funds "acc") hplay
  obtain ⟨payout, htr, haccepts⟩ := accepts_at haccepts
  have hrun : Run anySchedule Meanwhile 0 _ samplePool tr _ s' := run_of_play (fun _ => .refl) hrun
  rw [htr] at hrun
  exact ⟨_, payout, _, x, s', haccepts, hrun, hfunds, fun hkept => hmoves (hkept.forward e he).1⟩

/-! ### Refused payouts -/

/-- The account has its money, and a transfer that was not there before is REVERSED. -/
structure Restored (id : String) (s s' : Store) : Prop where
  funds : s'.funds id = s.funds id
  transfers : ∀ k row, s'.db.transfers.find? k = some row →
    s.db.transfers.find? k = some row ∨ row.status = .REVERSED

theorem Intact.restored {id : String} {s s' : Store} (h : Intact s s') : Restored id s s' :=
  ⟨h.funds id, fun _ _ hrow => .inl (h.transfers ▸ hrow)⟩

open InitiateExternalTransferHandler in
/-- **Without an accepted payout, all is undone exactly if no hold was taken, or the provider has refused and the
compensation goes through.** -/
theorem refused_payout_restored_iff {fuel : Nat} {command : InitiateExternalTransferCommand} {i : PId} {s s' : Store}
    {tr : List (Event Op.Res Err Store)} {x : Except Err TransferResponseDto}
    (hrefused : ∀ e ∈ tr, ¬ Accepts e) (hrun : Run anySchedule Meanwhile i (execute fuel command) s tr x s') :
    Restored command.sourceAccountId s s' ↔ (∀ e ∈ tr, ¬ Moves command.sourceAccountId e) ∨
      ∃ before payout rest, tr = before ++ payout :: rest ∧ payout.op.isPayout = true ∧
        Compensable command.sourceAccountId rest := by
  have hrehydrate : ∀ resourceId, (rehydrateTransfer resourceId).Calls fun op => Sideline op ∧
    op.isPayout = false :=
    rehydrateTransfer_calls fun _ => ⟨⟨nofun, rfl, rfl⟩, rfl⟩
  rcases IdempotencyGuardService.run_ends hrehydrate hrun with ⟨hintact, hevents⟩ | ⟨pre, body, post, y,
    s1, s2, hg⟩
  · exact iff_of_true hintact.restored (.inl fun e he => not_moves (hevents e he).1)
  rcases doExecute_ends hg.runs with ⟨hnone, ⟨hintact, hevents⟩ | ⟨hfunds, e, he, hmoves⟩⟩ |
    ⟨pre', paying, events, recipient, t, row, balance, total, s3, y', rfl, hnone, ⟨e, he, hmoves⟩,
      hrecorded, hpay⟩
  · exact iff_of_true (hg.before.trans (hintact.trans hg.after)).restored
      (.inl (hg.forall_trace hevents fun _ h _ => not_moves h))
  · refine iff_of_false (fun h => hfunds ?_) ?_
    · rw [← hg.after.funds, h.funds, hg.before.funds]
    · rintro (hnever | ⟨before, payout, rest, heq, hpayout, -⟩)
      · exact hnever e (by simp [hg.trace, he]) hmoves
      · have hnotPayout := hg.noPayout hnone payout (by simp [heq])
        rw [hpayout] at hnotPayout
        cases hnotPayout
  obtain ⟨payout, rest, rfl, hpayout, hnone', hbefore, hafter, hcases⟩ := payOut_ends hpay
  have hcondition : ((∀ e ∈ tr, ¬ Moves command.sourceAccountId e) ∨ ∃ before payout rest,
      tr = before ++ payout :: rest ∧ payout.op.isPayout = true ∧ Compensable command.sourceAccountId rest) ↔
      Compensable t.sourceAccountId (rest ++ post) := by
    rw [hrecorded.source]
    constructor
    · rintro (hnever | ⟨before, payout', rest', htr, hpayout', h⟩)
      · exact absurd hmoves (hnever e (by simp [hg.trace, he]))
      · rwa [(hg.only_payout hnone hnone' htr hpayout').2]
    · exact fun h => .inr ⟨pre ++ pre', payout, rest ++ post, by simp [hg.trace], hpayout, h⟩
  rw [hcondition]
  have hheld : HoldsWith t.sourceAccountId ⟨balance.minorUnits - total.minorUnits, balance.currency⟩
      (s1.db.transfers.put row) payout.after :=
    ⟨(hbefore.trans hafter).holds _ _ hrecorded.holds.1, (hbefore.trans hafter).transfers.trans hrecorded.holds.2⟩
  have hold : (s1.db.transfers.put row).find? t.id = some row := hrecorded.id ▸ Table.find?_put_self _ row
  rcases hcases with ⟨haccepts, -⟩ | ⟨-, e, hreverse⟩
  · exact absurd haccepts (hrefused payout (by simp [hg.trace]))
  obtain ⟨amount, fee, hcharged⟩ := hrecorded.charged
  obtain ⟨-, ⟨hc, row', hid, hreversed, hs2⟩ | ⟨hc, hs2⟩⟩ :=
    reverse_ends hrecorded.open_ hold hrecorded.version hheld
    hcharged.currency hcharged.positive hreverse fun e he => (hg.aside e (List.mem_append_right _ he)).2.offBooks
  · refine iff_of_true ⟨?_, fun k found hfound => ?_⟩ hc
    · rw [hg.after.funds, ← hg.before.funds, hcharged.funds, ← hrecorded.source, hs2.1.funds,
        Nat.sub_add_cancel hrecorded.enough]
    · rw [hg.after.transfers, hs2.2] at hfound
      by_cases hk : t.id = k
      · rw [← hk, ← hid, Table.find?_put_self] at hfound
        cases hfound
        exact .inr hreversed
      · rw [Table.find?_put_ne _ (by rwa [hid]), Table.find?_put_ne _ (by rwa [hrecorded.id]),
          hg.before.transfers] at hfound
        exact .inl hfound
  · refine iff_of_false (fun h => ?_) hc
    rcases hs2 with hs2 | hs2
    · have hfunds := h.funds
      have hpositive := hcharged.positive
      have henough := hrecorded.enough
      rw [hg.after.funds, ← hg.before.funds, hcharged.funds, ← hrecorded.source, hs2.funds] at hfunds
      simp only [Option.some.injEq, Prod.mk.injEq, and_true] at hfunds
      omega
    · have hkept : s'.db.transfers.find? t.id = some row := by
        rw [hg.after.transfers, hs2.2]
        exact hold
      rcases h.transfers _ _ hkept with hbefore | hstatus
      · have hfresh := hrecorded.fresh
        rw [hg.before.transfers, hbefore] at hfresh
        cases hfresh
      · rw [hrecorded.pending] at hstatus
        cases hstatus

/-- Flutterwave cannot be reached: the hold is taken back, and the transfer REVERSED. -/
theorem refused_payout_restored_iff_sample : ∃ tr e s', (∀ e ∈ tr, ¬ Accepts e) ∧
    Run anySchedule Meanwhile 0 (InitiateExternalTransferHandler.execute 0 sampleCommand) samplePool tr
      (.error e) s' ∧
    ((s'.db.transfers.find? "t").map (·.status)) = some .REVERSED ∧
    (Restored sampleCommand.sourceAccountId samplePool s' ↔
      (∀ e ∈ tr, ¬ Moves sampleCommand.sourceAccountId e) ∨
      ∃ before payout rest, tr = before ++ payout :: rest ∧ payout.op.isPayout = true ∧
        Compensable sampleCommand.sourceAccountId rest) := by
  have hplay : (playRun anySchedule 0 (sampleUntilPayout ++
      [.fail connectionLost, .ok, .ok, .uuid "k", .ok, .ok, .ok, .ok, .ok, .ok, .ok])
      (InitiateExternalTransferHandler.execute 0 sampleCommand) samplePool).any fun r =>
      r.2.1 = .error connectionLost ∧ (∀ e ∈ r.1, ¬ Accepts e) ∧
        ((r.2.2.db.transfers.find? "t").map (·.status)) = some .REVERSED := by
    decide +kernel
  obtain ⟨tr, x, s', hrun, rfl, hrefused, hstatus⟩ := playRun_seen (Q := fun tr x (s' : Store) =>
    x = .error connectionLost ∧ (∀ e ∈ tr, ¬ Accepts e) ∧
      ((s'.db.transfers.find? "t").map (·.status)) = some .REVERSED) hplay
  have hrun : Run anySchedule Meanwhile 0 _ samplePool tr _ s' := run_of_play (fun _ => .refl) hrun
  exact ⟨tr, _, s', hrefused, hrun, hstatus, refused_payout_restored_iff hrefused hrun⟩

/-- The journal of the hold is rejected: the ₦60.00 are gone, and the transfer is PENDING for good. -/
theorem refused_payout_orphaned : ∃ tr e s', (∀ e ∈ tr, ¬ Accepts e) ∧
    Run anySchedule Meanwhile 0 (InitiateExternalTransferHandler.execute 0 sampleCommand) samplePool tr
      (.error e) s' ∧
    ((s'.db.transfers.find? "t").map (·.status)) = some .PENDING ∧
    ¬ Restored sampleCommand.sourceAccountId samplePool s' := by
  have hplay : (playRun anySchedule 0 (sampleUntilPayout.dropLast ++ [.fail connectionLost])
      (InitiateExternalTransferHandler.execute 0 sampleCommand) samplePool).any fun r =>
      r.2.1 = .error connectionLost ∧ (∀ e ∈ r.1, ¬ Accepts e) ∧
        ((r.2.2.db.transfers.find? "t").map (·.status)) = some .PENDING ∧
        r.2.2.funds "acc" ≠ samplePool.funds "acc" := by
    decide +kernel
  obtain ⟨tr, x, s', hrun, rfl, hrefused, hstatus, hfunds⟩ := playRun_seen (Q := fun tr x (s' : Store) =>
    x = .error connectionLost ∧ (∀ e ∈ tr, ¬ Accepts e) ∧
      ((s'.db.transfers.find? "t").map (·.status)) = some .PENDING ∧ s'.funds "acc" ≠ samplePool.funds "acc") hplay
  have hrun : Run anySchedule Meanwhile 0 _ samplePool tr _ s' := run_of_play (fun _ => .refl) hrun
  exact ⟨tr, _, s', hrefused, hrun, hstatus, fun h => hfunds h.funds⟩

end Kudi
