import KudiCore.Ledger.DoubleEntry

/-!
# Methods whose calls may be rejected

| here | there |
| --- | --- |
| `Does` | a method does its work, or has done nothing by the time it throws |

`Alone` is about calls that go through; here any call may be rejected. One `Does` for each method of the repositories
and services that the transfer handlers call, where `K` is what the store meets when the method is called.
-/

namespace Kudi

open Interleave

/-- What neither the environment nor a read of ours puts an end to. -/
structure Stable (env : Store → Store → Prop) (K : Store → Prop) : Prop where
  env : ∀ {s s'}, env s s' → K s → K s'
  rows : OfRows K

/-- From `K`, `p` returns with all its calls let through, in `Q`. Or it throws, still in `K`: stopped at a call that
meets `T` or, where `P` allows it, of its own accord. -/
structure Does (env : Store → Store → Prop) (i : PId) (K : Store → Prop) (T : Op → Prop) (P : Prop)
    {ε α : Type}
    (p : Program ε α) (Q : α → Store → Prop) : Prop where
  returns : ∀ {s tr a s'}, K s → Run anySchedule env i p s tr (.ok a) s' → Through tr ∧ Q a s'
  throws : ∀ {s tr e s'}, K s → Run anySchedule env i p s tr (.error e) s' →
    K s' ∧ (Stopped T tr ∨ P ∧ Through tr)

section
variable {env : Store → Store → Prop} {i : PId} {K : Store → Prop} {T T' : Op → Prop} {P P' : Prop}
  {ε ε' α β : Type}

theorem at_stable (db : Db) : Stable TimePasses (At db) := ⟨at_ofRows.passes, at_ofRows⟩

theorem rejectable {op : Op} {a : Ans} {e : Err} {s s' : Store} (hx : exec i a op s = some (.error e, s')) :
    op.fallible = true ∨ op.constrained = true := by
  cases hc : op.constrained with
  | true => exact .inr rfl
  | false =>
    cases a with
    | fail e => exact .inl (exec_fail hx).1
    | _ => cases isFail_of_error hc hx

namespace Does

theorem mono {p : Program ε α} {Q Q' : α → Store → Prop} (h : Does env i K T P p Q) (hT : ∀ op, T op → T' op)
    (hP : P → P') (hQ : ∀ a s, Q a s → Q' a s) : Does env i K T' P' p Q' where
  returns hK hr := (h.returns hK hr).imp_right (hQ _ _)
  throws hK hr := (h.throws hK hr).imp_right (Or.imp (fun hs => hs.mono fun e _ => hT e.op) (And.imp_left hP))

/-! ### Putting methods together -/

theorem pure {a : α} {Q : α → Store → Prop} (h : ∀ s, K s → Q a s) : Does env i K T P
    (.pure a : Program ε α) Q where
  returns hK hr := by
    obtain ⟨rfl, ha, rfl⟩ := hr
    cases ha
    exact ⟨.nil, h _ hK⟩
  throws _ hr := nomatch hr.2.1

theorem throw {e : ε} {Q : α → Store → Prop} (hP : P) : Does env i K T P (.throw e : Program ε α) Q where
  returns _ hr := nomatch hr.2.1
  throws hK hr := by
    obtain ⟨rfl, -, rfl⟩ := hr
    exact ⟨hK, .inr ⟨hP, .nil⟩⟩

/-- A method that reads, then one that does something. -/
theorem bind {p : Program ε α} {f : α → Program ε β} {M : α → Store → Prop} {Q : β → Store → Prop}
    (hp : Does env i K T P p M) (hM : ∀ a s, M a s → K s) (hf : ∀ a, Does env i (M a) T P (f a) Q) :
    Does env i K T P (p >>= f) Q where
  returns hK hr := by
    rcases hr.bind with ⟨a, s1, tr1, tr2, h1, h2, rfl⟩ | ⟨e, he, -⟩
    · obtain ⟨hthrough, hM⟩ := hp.returns hK h1
      obtain ⟨hthrough', hQ⟩ := (hf a).returns hM h2
      exact ⟨hthrough.append hthrough', hQ⟩
    · cases he
  throws hK hr := by
    rcases hr.bind with ⟨a, s1, tr1, tr2, h1, h2, rfl⟩ | ⟨e, he, h1⟩
    · obtain ⟨hthrough, hMa⟩ := hp.returns hK h1
      obtain ⟨hMa, hstopped⟩ := (hf a).throws hMa h2
      exact ⟨hM a _ hMa, hstopped.imp (fun h => h.append hthrough) fun h => ⟨h.1, hthrough.append h.2⟩⟩
    · cases he
      exact hp.throws hK h1

theorem ofExcept_bind {x : Except ε α} {f : α → Program ε β} {Q : β → Store → Prop}
    (hok : ∀ a, x = .ok a → Does env i K T P (f a) Q) (herr : ∀ e, x = .error e → P) :
    Does env i K T P (Prog.ofExcept x >>= f) Q := by
  cases x with
  | ok a => exact hok a rfl
  | error e => exact .throw (herr e rfl)

theorem await {op : Op} {Q : op.Res → Store → Prop} (hK : Stable env K) (ht : ∀ q, op ≠ .transaction q)
    (hop : op.fallible = true ∨ op.constrained = true → T op)
    (hok : ∀ {s a v s'}, K s → exec i a op s = some (.ok v, s') → Q v s') :
    Does env i K T P (Prog.await op) Q where
  returns h hr := by
    obtain ⟨s1, a, hs, -, hx, rfl⟩ := hr.await
    exact ⟨.cons rfl .nil, hok (hK.env hs h) hx⟩
  throws h hr := by
    obtain ⟨s1, a, hs, -, hx, rfl⟩ := hr.await
    have hsame := (exec_error hx).resolve_right fun hc => ht _ hc.1
    exact ⟨hK.rows hsame (hK.env hs h), .inl (.last rfl (hop (rejectable hx)))⟩

/-- What is left to do once the last call has been made. -/
theorem andThen {p : Program ε α} {f : α → Program ε β} {M : α → Store → Prop} {Q : β → Store → Prop}
    (hp : Does env i K T P p M)
    (hf : ∀ a s, M a s → (∃ b, f a = .pure b ∧ Q b s) ∨ (∃ e, f a = .throw e) ∧ K s ∧ P) :
    Does env i K T P (p >>= f) Q where
  returns hK hr := by
    rcases hr.bind with ⟨a, s1, tr1, tr2, h1, h2, rfl⟩ | ⟨e, he, -⟩
    · obtain ⟨hthrough, hM⟩ := hp.returns hK h1
      rcases hf a s1 hM with ⟨b, hb, hQ⟩ | ⟨⟨e, he⟩, -⟩
      · rw [hb] at h2
        obtain ⟨rfl, hbb, rfl⟩ := h2
        cases hbb
        exact ⟨hthrough.append .nil, hQ⟩
      · rw [he] at h2
        cases h2.2.1
    · cases he
  throws hK hr := by
    rcases hr.bind with ⟨a, s1, tr1, tr2, h1, h2, rfl⟩ | ⟨e, he, h1⟩
    · obtain ⟨hthrough, hM⟩ := hp.returns hK h1
      rcases hf a s1 hM with ⟨b, hb, -⟩ | ⟨⟨e, he⟩, hKs, hP⟩
      · rw [hb] at h2
        cases h2.2.1
      · rw [he] at h2
        obtain ⟨rfl, -, rfl⟩ := h2
        exact ⟨hKs, .inr ⟨hP, hthrough.append .nil⟩⟩
    · cases he
      exact hp.throws hK h1

/-- Calls that only read, and throw nothing of their own. -/
theorem reads {p : Program ε α} {F : α → Prop} (hK : Stable env K) (hcalls : p.Calls T)
    (hread : ∀ op, T op → op.mutates = false) (hstraight : p.Straight) (hu : p.Unfailing) (hr : p.Returns F) :
    Does env i K T P p fun a s => F a ∧ K s where
  returns h hrun := by
    refine ⟨?_, hrun.returns hr, ?_⟩
    · rcases hrun.straight hstraight with hthrough | ⟨-, e, he⟩
      · exact hthrough
      · cases he
    · exact (Triple.of_calls_returns (K := K) hcalls hr hK.env fun h hop _ hx =>
        hK.rows (exec_read (hread _ hop) hx) h).returns h hrun |>.2
  throws h hrun := by
    refine ⟨(Triple.of_calls_returns (K := K) hcalls hr hK.env fun h hop _ hx =>
      hK.rows (exec_read (hread _ hop) hx) h).throws h hrun, ?_⟩
    rcases hrun.straight_calls hstraight hcalls with hthrough | ⟨hstopped, -⟩
    · obtain ⟨event, hevent, hrejected⟩ := hrun.rejected hu
      exact absurd (hthrough event hevent) (by simp [hrejected])
    · exact .inl hstopped

end Does

/-! ## The methods -/

/-- The calls on the ledger. -/
def Op.onLedger : Op → Prop
  | .ledgerEntry .. => True
  | _ => False

def Op.isPublish : Op → Prop
  | .publish _ => True
  | _ => False

namespace PrismaAccountRepository

/-- `F` is what is known of the row. -/
theorem findById_does {id : String} {F : Option AccountRecord → Prop} (hK : Stable env K)
    (hF : ∀ s, K s → F (s.db.accounts.find? id))
    (hP : ∀ row e, F (some row) → AccountMapper.toDomain row = .error e → P) :
    Does env i K (· = .account .prisma (.findUnique id)) P (findById id) fun o s => K s ∧ match o with
      | none => F none
      | some a => ∃ row, F (some row) ∧ AccountMapper.toDomain row = .ok a := by
  refine .bind (M := fun found s => K s ∧ F found) (.await hK nofun (fun _ => rfl) fun {s _ v s'} h hx => ?_)
    (fun _ _ h => h.1) fun found => ?_
  · obtain ⟨db, hv, rfl, rfl⟩ := exec_account_findUnique hx
    cases hv
    exact ⟨h, hF _ h⟩
  · cases found with
    | none => exact .pure fun _ h => h
    | some row =>
      refine ⟨fun h hr => ?_, fun h hr => ?_⟩
      · rcases hr.ofExcept_bind with ⟨a, ha, rfl, hpure, rfl⟩ | ⟨e, -, -, he, -⟩
        · cases hpure
          exact ⟨.nil, h.1, row, h.2, ha⟩
        · cases he
      · rcases hr.ofExcept_bind with ⟨a, ha, -, hpure, -⟩ | ⟨e, he, rfl, -, rfl⟩
        · cases hpure
        · exact ⟨h, .inr ⟨hP row e h.2 he, .nil⟩⟩

/-- An account that has been loaded before: its row is written if nobody else has got there first. -/
theorem save_does {a : Account} {Q : Store → Prop} (hK : Stable env K) (hv : a.version ≠ 0)
    (hQ : ∀ s row, K s → s.db.accounts.find? a.id = some row → row.version = a.version - 1 →
      Q (s.write i .prisma (.account (AccountMapper.toPersistence a) a.domainEvents)))
    (hP : ∀ s, K s → (∀ row, s.db.accounts.find? a.id = some row → row.version ≠ a.version - 1) → P) :
    Does env i K (· = .account .prisma (.updateMany (a.version - 1) (AccountMapper.toPersistence a) a.domainEvents)) P
      (save a) fun _ => Q := by
  unfold save
  rw [if_neg hv]
  refine .andThen (M := fun n s => if n = 0 then K s ∧ P else Q s) (.await hK nofun (fun _ => rfl)
    fun {s ans n s'} h hx => ?_) fun n s hM => ?_
  · rcases exec_account_updateMany hx with ⟨rfl, rfl⟩ | ⟨rfl, rfl, -, db, row, hview, hrow, hver⟩
    · rw [if_pos rfl]
      exact ⟨h, hP _ h fun row hrow => exec_account_missed hx Store.view_prisma hrow⟩
    · cases hview
      rw [if_neg Nat.one_ne_zero]
      exact hQ _ row h hrow hver
  · by_cases hn : n = 0
    · subst hn
      exact .inr ⟨⟨_, rfl⟩, hM⟩
    · rw [if_neg hn] at hM ⊢
      exact .inl ⟨(), rfl, hM⟩

end PrismaAccountRepository

namespace PrismaTransferRepository

/-- A transfer that nobody else writes. -/
theorem save_does {t : Transfer} {Q : Store → Prop} (hK : Stable env K) (hv : t.version ≠ 0)
    (hstored : ∀ s, K s → ∃ row, s.db.transfers.find? t.id = some row ∧ row.version = t.version - 1)
    (hQ : ∀ s, K s → Q (s.write i .prisma (.transfer (TransferMapper.toPersistence t)))) :
    Does env i K (· = .transfer .prisma (.updateMany (t.version - 1) (TransferMapper.toPersistence t))) P (save t)
      fun _ => Q := by
  unfold save
  rw [if_neg hv]
  refine .andThen (M := fun n s => n ≠ 0 ∧ Q s) (.await hK nofun (fun _ => rfl) fun {s ans n s'} h hx => ?_)
    fun n s hM => ?_
  · rcases exec_transfer_updateMany hx with ⟨rfl, rfl⟩ | ⟨rfl, rfl, -⟩
    · obtain ⟨row, hrow, hver⟩ := hstored _ h
      exact absurd hver (exec_transfer_missed hx Store.view_prisma hrow)
    · exact ⟨Nat.one_ne_zero, hQ _ h⟩
  · rw [if_neg hM.1]
    exact .inl ⟨(), rfl, hM.2⟩

theorem create_does {t : Transfer} {Q : Store → Prop} (hK : Stable env K) (hv : t.version = 0)
    (hQ : ∀ s, K s → s.db.transfers.find? t.id = none →
      Q (s.write i .prisma (.transfer (TransferMapper.toPersistence t)))) :
    Does env i K (· = .transfer .prisma (.create (TransferMapper.toPersistence t))) P (save t) fun _ => Q := by
  unfold save
  rw [if_pos hv]
  refine .await hK nofun (fun _ => rfl) fun {s ans n s'} h hx => ?_
  obtain ⟨rfl, -, db, hview, hnone⟩ := exec_transfer_create hx
  cases hview
  exact hQ _ h hnone

/-- `F` is what is known of the row. -/
theorem findByProviderReference_does {providerReference : String} {F : Option TransferRecord → Prop}
    (hK : Stable env K)
    (hF : ∀ s, K s → F (s.db.transfers.rows.find? fun r => r.providerReference = some providerReference))
    (hP : ∀ row e, F (some row) → TransferMapper.toDomain row = .error e → P) :
    Does env i K (· = .transfer .prisma (.findFirst providerReference)) P (findByProviderReference providerReference)
      fun o s => K s ∧ match o with
        | none => F none
        | some t => ∃ row, F (some row) ∧ TransferMapper.toDomain row = .ok t := by
  refine .bind (M := fun found s => K s ∧ F found) (.await hK nofun (fun _ => rfl) fun {s _ v s'} h hx => ?_)
    (fun _ _ h => h.1) fun found => ?_
  · obtain ⟨db, hv, rfl, rfl⟩ := exec_transfer_findFirst hx
    cases hv
    exact ⟨h, hF _ h⟩
  · cases found with
    | none => exact .pure fun _ h => h
    | some row =>
      refine ⟨fun h hr => ?_, fun h hr => ?_⟩
      · rcases hr.ofExcept_bind with ⟨t, ht, rfl, hpure, rfl⟩ | ⟨e, -, -, he, -⟩
        · cases hpure
          exact ⟨.nil, h.1, row, h.2, ht⟩
        · cases he
      · rcases hr.ofExcept_bind with ⟨t, ht, -, hpure, -⟩ | ⟨e, he, rfl, -, rfl⟩
        · cases hpure
        · exact ⟨h, .inr ⟨hP row e h.2 he, .nil⟩⟩

end PrismaTransferRepository

namespace PrismaLedgerRecorderService

theorem rows_straight {posting : LedgerPosting} {client : Client} {journalId : String} :
    ∀ legs, (rows posting client journalId legs).Straight
  | [] => trivial
  | leg :: legs => by
    refine .bind ?_ fun _ => .bind (rows_straight legs) fun _ => trivial
    unfold balanceAfterMinorUnits
    split
    · trivial
    · exact .bind (.await _) fun _ => trivial

theorem rows_does {posting : LedgerPosting} {journalId : String} (hK : Stable env K) :
    Does env i K Op.onLedger P (rows posting .prisma journalId posting.legs)
      fun data s => RowsOf posting journalId posting.legs data ∧ K s :=
  (Does.reads (T := fun op => op.onLedger ∧ op.mutates = false) hK (rows_calls (fun _ => ⟨trivial, rfl⟩) _)
    (fun _ hop => hop.2) (rows_straight _) (rows_unfailing _) (rows_returns _)).mono (fun _ hop => hop.1) (fun h => h)
    fun _ _ h => h

/-- A balanced posting. -/
theorem post_does {posting : LedgerPosting} {Q : Store → Prop} (hK : Stable env K)
    (hlegs : ∀ currency, netByCurrency posting.legs currency = 0)
    (hQ : ∀ s rows, K s → (∀ id, ledgerNet rows id = legsNet posting.legs id) →
      Q (s.write i .prisma (.ledgerEntries rows))) :
    Does env i K Op.onLedger P (post posting .prisma) fun _ => Q := by
  refine .ofExcept_bind (fun _ _ => ?_) fun e he => by cases (assertBalanced_of hlegs).symm.trans he
  refine .bind (M := fun _ => K) (.await hK (fun _ h => by cases h) (fun h => by
    simp [Op.fallible, Op.constrained] at h)
    fun h hx => hK.rows (exec_read rfl hx) h) (fun _ _ h => h) fun journalId => ?_
  refine .bind (rows_does hK) (fun _ _ h => h.2) fun data => ?_
  have hdata : Stable env fun s => RowsOf posting journalId posting.legs data ∧ K s :=
    ⟨fun hs h => ⟨h.1, hK.env hs h.2⟩, fun hs h => ⟨h.1, hK.rows hs h.2⟩⟩
  refine .await hdata (fun _ h => by cases h) (fun _ => trivial) fun {s _ v s'} h hx => ?_
  obtain ⟨rfl, -⟩ := exec_ledger_createMany hx
  exact hQ _ _ h.2 (h.1.net s.clock)

end PrismaLedgerRecorderService

theorem publishAll_straight : ∀ events, (publishAll events).Straight
  | [] => trivial
  | _ :: events => .bind (.await _) fun _ => publishAll_straight events

theorem publishAll_does (hK : Stable env K) (events : List DomainEvent) :
    Does env i K Op.isPublish P (publishAll events) fun _ => K :=
  (Does.reads hK (publishAll_calls (T := Op.isPublish) (fun _ => trivial) events) (fun op hop => by
    cases op <;> first | rfl | exact hop.elim) (publishAll_straight events) (publishAll_unfailing events)
    (Prog.returns_true _)).mono (fun _ h => h) (fun h => h) fun _ _ h => h.2

end

end Kudi
