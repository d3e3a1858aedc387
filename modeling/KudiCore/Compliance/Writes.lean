import KudiCore.Compliance.AuditTrail

/-!
# What a run writes

| here | there |
| --- | --- |
| `Served`   | a call that is refused is the provider's |
| `Writes`   | the profiles saved and the entries logged, in order; and time has passed |
| `content`  | an entry, but for its id |

Where the storage serves every call, what a program writes is read off its text: nothing by a look-up, one entry by
`saveEntry`, one row by a save that finds the version it expects (`save_served`).
-/

namespace Kudi.Compliance

open Interleave

def Op.ofProvider : Op → Bool
  | .resolve .. => true
  | _ => false

/-- No storage failure. -/
def Served (call : Call) : Prop := call.rejected = true → call.op.ofProvider = true

instance (call : Call) : Decidable (Served call) := inferInstanceAs (Decidable (_ → _))

/-- From `s` to `s'` the profiles `saved` have been put, and the entries `logged` appended. -/
structure Writes (saved : List KycProfileRecord) (logged : List KycAuditLogEntry) (s s' : Store) : Prop where
  profiles : s'.kycProfiles = saved.foldl Table.put s.kycProfiles
  log : s'.kycAuditLog.rows = s.kycAuditLog.rows ++ logged
  users : s'.users = s.users
  sanctionsList : s'.sanctionsList = s.sanctionsList

def KycAuditLogEntry.content (e : KycAuditLogEntry) : KycAuditLogEntry := { e with id := "" }

namespace Writes

variable {saved saved' : List KycProfileRecord} {logged logged' : List KycAuditLogEntry} {s s' s'' : Store}

theorem of_passes (h : TimePasses s s') : Writes [] [] s s' := by
  obtain ⟨ms, rfl⟩ := h
  exact ⟨rfl, (List.append_nil _).symm, rfl, rfl⟩

theorem of_put {data : KycProfileRecord} (h : TimePasses { s with kycProfiles := s.kycProfiles.put data } s') :
    Writes [data] [] s s' := by
  obtain ⟨ms, rfl⟩ := h
  exact ⟨rfl, (List.append_nil _).symm, rfl, rfl⟩

theorem trans (h : Writes saved logged s s') (h' : Writes saved' logged' s' s'') :
    Writes (saved ++ saved') (logged ++ logged') s s'' where
  profiles := by rw [h'.profiles, h.profiles, List.foldl_append]
  log := by rw [h'.log, h.log, List.append_assoc]
  users := h'.users.trans h.users
  sanctionsList := h'.sanctionsList.trans h.sanctionsList

theorem after_passes (h : Writes saved logged s' s'') (hs : TimePasses s s') : Writes saved logged s s'' :=
  (of_passes hs).trans h

theorem same_profiles (h : Writes [] logged s s') : s'.kycProfiles = s.kycProfiles := h.profiles

/-- The user's profile is the one saved last. -/
theorem profileOf {userId : String} : ∀ {saved : List KycProfileRecord} {t t' : Table KycProfileRecord.id}
    {r : KycProfileRecord}, t' = saved.foldl Table.put t → t.rows.find? (fun r => r.userId = userId) = some r →
    (∀ data ∈ saved, data.id = r.id ∧ data.userId = userId) →
    t'.rows.find? (fun r => r.userId = userId) = some (saved.getLast?.getD r)
  | [], t, t', r, ht, hr, _ => ht ▸ hr
  | data :: saved, t, t', r, ht, hr, hsaved => by
    obtain ⟨hid, huser⟩ := hsaved data List.mem_cons_self
    have hstored : t.find? data.id = some r := hid ▸ Table.find?_of_mem (List.mem_of_find?_eq_some hr)
    rw [List.getLast?_cons, Option.getD_some]
    refine profileOf ht (Table.find?_put_where hstored hr (decide_eq_true huser)) fun data' hdata' => ?_
    obtain ⟨hid', huser'⟩ := hsaved data' (List.mem_cons_of_mem _ hdata')
    exact ⟨hid'.trans hid.symm, huser'⟩

end Writes

/-! ## Where the storage serves every call -/

section
variable {i : PId} {s s' : Store} {tr : List Call}

theorem Served.ok {op : Op} {r : Except Err op.Res} {s1 s2 : Store} (hop : op.ofProvider = false)
    (h : Served ⟨op, r, s1, s2⟩) : ∃ v, r = .ok v := by
  cases r with
  | ok v => exact ⟨v, rfl⟩
  | error e => exact absurd (h rfl) (by rw [hop]; exact Bool.false_ne_true)

/-- An awaited call of the storage, and the rest. -/
theorem await_served {β : Type} {op : Op} {f : op.Res → Handler β} {x : Except Err β} (hop : op.ofProvider = false)
    (h : Run anySchedule TimePasses i (Prog.await op >>= f) s tr x s') (hok : ∀ call ∈ tr, Served call) :
    ∃ s1 a v s2 rest, TimePasses s s1 ∧ exec a op s1 = some (.ok v, s2) ∧
      Run anySchedule TimePasses i (f v) s2 rest x s' ∧ ∀ call ∈ rest, Served call := by
  obtain ⟨s1, a, r, s2, rest, hs, -, hx, rfl, hend⟩ := h.await_bind
  obtain ⟨v, rfl⟩ := (hok _ List.mem_cons_self).ok hop
  rcases hend with ⟨_, he, hf⟩ | ⟨_, he, -⟩
  · cases he
    exact ⟨s1, a, v, s2, rest, hs, hx, hf, fun call hcall => hok call (List.mem_cons_of_mem _ hcall)⟩
  · cases he

/-- One program after another. -/
theorem bind_served {α β : Type} {p : Handler α} {f : α → Handler β} {x : Except Err β}
    (h : Run anySchedule TimePasses i (p >>= f) s tr x s') (hok : ∀ call ∈ tr, Served call) :
    (∃ a s1 tr1 tr2, Run anySchedule TimePasses i p s tr1 (.ok a) s1 ∧ (∀ call ∈ tr1, Served call) ∧
      Run anySchedule TimePasses i (f a) s1 tr2 x s' ∧ (∀ call ∈ tr2, Served call) ∧ tr = tr1 ++ tr2) ∨
      ∃ e, x = .error e ∧ Run anySchedule TimePasses i p s tr (.error e) s' := by
  rcases h.bind with ⟨a, s1, tr1, tr2, h1, h2, rfl⟩ | ⟨e, rfl, h1⟩
  · exact .inl ⟨a, s1, tr1, tr2, h1, fun call hcall => hok call (List.mem_append_left _ hcall), h2,
      fun call hcall => hok call (List.mem_append_right _ hcall), rfl⟩
  · exact .inr ⟨e, rfl, h1⟩

/-- ... where the first always returns. -/
theorem then_served {β : Type} {p : Handler Unit} {f : Unit → Handler β} {x : Except Err β} {Q : Store → Prop}
    (h : Run anySchedule TimePasses i (p >>= f) s tr x s') (hok : ∀ call ∈ tr, Served call)
    (hp : ∀ {tr1 x1 s1}, Run anySchedule TimePasses i p s tr1 x1 s1 → (∀ call ∈ tr1, Served call) →
      x1 = .ok () ∧ Q s1) :
    ∃ s1 rest, Q s1 ∧ Run anySchedule TimePasses i (f ()) s1 rest x s' ∧ ∀ call ∈ rest, Served call := by
  rcases bind_served h hok with ⟨_, s1, tr1, tr2, h1, hok1, h2, hok2, -⟩ | ⟨e, -, h1⟩
  · exact ⟨s1, tr2, (hp h1 hok1).2, h2, hok2⟩
  · cases (hp h1 hok).1

theorem writes_of_reads {ε α : Type} {p : Prog Op.Res Err ε α} {x : Except ε α}
    (hp : p.Calls fun op => op.writes = false) (h : Run anySchedule TimePasses i p s tr x s') : Writes [] [] s s' :=
  .of_passes (passes_of_calls hp h)

theorem createEntry_served {entry : KycAuditLogEntry} {x : Except Err Unit}
    (h : Run anySchedule TimePasses i (PrismaKycAuditLogRepository.save entry) s tr x s')
    (hok : ∀ call ∈ tr, Served call) : x = .ok () ∧ Writes [] [entry] s s' := by
  obtain ⟨s1, a, hs, -, hx, rfl⟩ := h.await
  obtain ⟨_, rfl⟩ := (hok _ List.mem_cons_self).ok rfl
  obtain ⟨hnew, rfl⟩ := exec_createEntry hx
  have hlog : Writes [] [entry] s1 { s1 with kycAuditLog := s1.kycAuditLog.put entry } :=
    ⟨rfl, Table.rows_put_new hnew, rfl, rfl⟩
  exact ⟨rfl, hlog.after_passes hs⟩

theorem saveEntry_served {entry : String → KycAuditLogEntry} {x : Except Err Unit}
    (h : Run anySchedule TimePasses i (saveEntry entry) s tr x s') (hok : ∀ call ∈ tr, Served call) :
    x = .ok () ∧ ∃ id, Writes [] [entry id] s s' := by
  obtain ⟨s1, a, id, s2, rest, hs, hx, h, hrest⟩ := await_served rfl h hok
  obtain rfl := exec_read rfl hx
  obtain ⟨rfl, hlog⟩ := createEntry_served h hrest
  exact ⟨rfl, id, hlog.after_passes hs⟩

theorem publishAll_served {events : List KycEvent} {x : Except Err Unit}
    (h : Run anySchedule TimePasses i (publishAll events) s tr x s') : x = .ok () ∧ Writes [] [] s s' := by
  have hcalls := publishAll_calls (T := fun op => op.fallible = false) (fun _ => rfl) events
  obtain ⟨_, rfl⟩ := h.unfailing hcalls (Unscreened.publishAll_unfailing events) fun {s1 a op e s2} hop hx => by
    obtain ⟨v, hv⟩ := exec_infallible hop hx
    cases hv
  exact ⟨rfl, writes_of_reads (publishAll_calls (T := fun op => op.writes = false) (fun _ => rfl) events) h⟩

theorem entryOf_content {event : KycEvent} {entry : String → KycAuditLogEntry} (h : entryOf event = some entry)
    (id : String) : (entry id).content = entry "" := by
  cases event <;> cases h <;> rfl

/-- The entries of the events that are relevant, in their order. -/
theorem recordDomainEvents_served {x : Except Err Unit} : ∀ {events : List KycEvent} {s : Store} {tr : List Call},
    Run anySchedule TimePasses i (KycAuditRecorderService.recordDomainEvents events) s tr x s' →
    (∀ call ∈ tr, Served call) → x = .ok () ∧ ∃ entries, Writes [] entries s s' ∧
      entries.map KycAuditLogEntry.content = (events.filterMap entryOf).map fun entry => entry ""
  | [], s, tr, h, _ => by
    obtain ⟨-, rfl, rfl⟩ := h
    exact ⟨rfl, [], .of_passes (.refl _), rfl⟩
  | event :: events, s, tr, h, hok => by
    have hrecord : ∀ {x s1 tr1}, Run anySchedule TimePasses i
      (KycAuditRecorderService.recordDomainEvent event) s tr1 x s1 →
        (∀ call ∈ tr1, Served call) → x = .ok () ∧ ∃ entries, Writes [] entries s s1 ∧
          entries.map KycAuditLogEntry.content = ([event].filterMap entryOf).map fun entry => entry "" := by
      intro x s1 tr1 h1 hok1
      unfold KycAuditRecorderService.recordDomainEvent at h1
      cases hentry : entryOf event with
      | none =>
        rw [hentry] at h1
        obtain ⟨-, rfl, rfl⟩ := h1
        exact ⟨rfl, [], .of_passes (.refl _), by simp [hentry]⟩
      | some entry =>
        rw [hentry] at h1
        obtain ⟨rfl, id, hlog⟩ := saveEntry_served h1 hok1
        exact ⟨rfl, [entry id], hlog, by simp [hentry, entryOf_content hentry]⟩
    rcases h.bind with ⟨_, s1, tr1, tr2, h1, h2, rfl⟩ | ⟨e, rfl, h1⟩
    · obtain ⟨-, entries, hlog, hentries⟩ := hrecord h1 fun call hcall => hok call (List.mem_append_left _ hcall)
      obtain ⟨rfl, entries', hlog', hentries'⟩ :=
        recordDomainEvents_served h2 fun call hcall => hok call (List.mem_append_right _ hcall)
      refine ⟨rfl, _, hlog.trans hlog', ?_⟩
      rw [List.map_append, hentries, hentries', ← List.map_append, ← List.filterMap_append, List.singleton_append]
    · obtain ⟨he, -⟩ := hrecord h1 hok
      cases he

/-- A save finds the version before its own, or throws. -/
theorem save_served {p : KycProfile} {r : KycProfileRecord} {x : Except Err Unit} (hv : 0 < p.version)
    (hr : s.kycProfiles.find? p.id = some r)
    (h : Run anySchedule TimePasses i (PrismaKycProfileRepository.save p) s tr x s')
    (hok : ∀ call ∈ tr, Served call) :
    (r.version + 1 = p.version ∧ x = .ok () ∧ Writes [KycProfileMapper.toPersistence p] [] s s') ∨
      r.version + 1 ≠ p.version ∧ x = .error (PrismaKycProfileRepository.modifiedConcurrently p.id) ∧
        Writes [] [] s s' := by
  have hversion : (KycProfileMapper.toPersistence p).version ≠ 0 := Nat.pos_iff_ne_zero.1 hv
  unfold PrismaKycProfileRepository.save at h
  simp only [if_neg hversion] at h
  obtain ⟨s1, a, n, s2, rest, hs, hx, hend, -⟩ := await_served rfl h hok
  have hstored : s1.kycProfiles.find? (KycProfileMapper.toPersistence p).id = some r := by
    obtain ⟨ms, rfl⟩ := hs
    exact hr
  have hbefore : (KycProfileMapper.toPersistence p).version - 1 = p.version - 1 := rfl
  rcases exec_updateProfile hx with ⟨rfl, rfl, hother⟩ | ⟨rfl, rfl, r', hr', hsame⟩
  · rw [if_pos rfl] at hend
    obtain ⟨-, rfl, rfl⟩ := hend
    have hother := hother r hstored
    exact .inr ⟨by omega, rfl, .of_passes hs⟩
  · rw [if_neg Nat.one_ne_zero] at hend
    obtain ⟨-, rfl, rfl⟩ := hend
    cases hstored.symm.trans hr'
    exact .inl ⟨by omega, rfl, Writes.after_passes ⟨rfl, (List.append_nil _).symm, rfl, rfl⟩ hs⟩

/-- ... and one that is a version ahead goes through. -/
theorem save_next {p : KycProfile} {r : KycProfileRecord} {x : Except Err Unit} (hv : p.version = r.version + 1)
    (hr : s.kycProfiles.find? p.id = some r)
    (h : Run anySchedule TimePasses i (PrismaKycProfileRepository.save p) s tr x s')
    (hok : ∀ call ∈ tr, Served call) :
    x = .ok () ∧ Writes [KycProfileMapper.toPersistence p] [] s s' := by
  rcases save_served (hv ▸ Nat.succ_pos _) hr h hok with ⟨-, hx, hwrites⟩ | ⟨hne, -⟩
  · exact ⟨hx, hwrites⟩
  · exact absurd hv.symm hne

end

end Kudi.Compliance
