import Dnlab.Gui.WebuiService
import Dnlab.Lib.Machine
import Mathlib.Data.Finset.Card

/-!
# Tunnels are accounted for

The look for a tunnel to reuse and the look at the limit come before the process is
started, and the tunnel is registered after that without a second look: two opens
of one key that overlap both register (`not_accounted_twice`). An open that gives up
waits two seconds for its process, and does not kill it. Where no two opens of a key
overlap, the limit leaves room for the opens that are already past it, and what does
not bind exits in time, all tunnels are accounted for (`accounted_run`): the two looks
keep a tunnel alone for its key, and the tunnels with the opens that are past the
limit within it (`Sound`).
-/

namespace Dnlab.Gui.Webui

/-- The phases of a call that has a process. -/
def Phase.Spawned (phase : Phase) : Prop := phase = .bind ∨ phase = .register ∨ phase = .terminate

/-- A call that has looked for a tunnel, and may register its own. -/
def Phase.sought : Phase → Bool
  | .limit | .spawn | .bind | .register => true
  | _ => false

/-- A call that has looked at the limit, and may register its tunnel. -/
def Phase.admitted : Phase → Bool
  | .spawn | .bind | .register => true
  | _ => false

/-- A call that has not started its process. -/
def Phase.early : Phase → Bool
  | .reuse | .limit | .spawn => true
  | _ => false

theorem Phase.sought_of_admitted {phase : Phase} (h : phase.admitted = true) : phase.sought = true := by
  cases phase <;> first | rfl | exact nomatch h

theorem Process.kill_ne_running (process : Process) : process.kill ≠ .running := by
  cases process <;> exact nofun

namespace WebUIService

variable {s : WebUIService} {id token : ℕ}

/-- The tunnels are within the limit, each is alone for its key and found by it, and a process that
    runs when its call is over has its tunnel. -/
structure Accounted (s : WebUIService) : Prop where
  limit : s.tunnels.length ≤ maxTunnels
  live : ∀ id, (s.opens id).phase = .returned ∨ (s.opens id).phase = .failed →
    (s.opens id).process = .running → ∃ t ∈ s.tunnels, t.token = id
  unique : ∀ t ∈ s.tunnels, ∀ t' ∈ s.tunnels, t.key = t'.key → t = t'
  index : ∀ t ∈ s.tunnels, s.byKey t.key = some t.token

/-- The calls that are past the limit and have not registered their tunnels. -/
def admitted (s : WebUIService) : Finset ℕ :=
  (Finset.range s.count).filter fun id => (s.opens id).phase.admitted = true

/-- No two opens of a key overlap between the look for a tunnel and the registration. Below the limit
    there is also room for the opens that are past it. A process that was terminated has exited when
    the wait for it is over. -/
def Guarded (s : WebUIService) : Event → Prop
  | .reuse id => (s.opens id).phase = .reuse → ∀ id' < s.count,
      (s.opens id').phase.sought = true → (s.opens id').key ≠ (s.opens id).key
  | .limit id => (s.opens id).phase = .limit →
      s.tunnels.length < maxTunnels → s.tunnels.length + s.admitted.card < maxTunnels
  | .terminated id => (s.opens id).phase = .terminate → (s.opens id).process ≠ .running
  | _ => True

instance (s : WebUIService) (event : Event) : Decidable (s.Guarded event) := by
  cases event <;> unfold Guarded <;> infer_instance

/-- Every tunnel is of a call that has returned, a process that runs has its tunnel or a call that
    still knows it, and the tunnels that calls may register have room and are alone for their keys. -/
structure Sound (s : WebUIService) : Prop where
  limit : s.tunnels.length + s.admitted.card ≤ maxTunnels
  alone : ∀ id, (s.opens id).phase.sought = true →
    (∀ t ∈ s.tunnels, t.key ≠ (s.opens id).key) ∧
    ∀ id', (s.opens id').phase.sought = true → (s.opens id').key = (s.opens id).key → id' = id
  nodup : (s.tunnels.map Tunnel.token).Nodup
  returned : ∀ t ∈ s.tunnels, (s.opens t.token).phase = .returned
  index : ∀ t ∈ s.tunnels, s.byKey t.key = some t.token
  running : ∀ id, (s.opens id).process = .running →
    Phase.Spawned (s.opens id).phase ∨ ∃ t ∈ s.tunnels, t.token = id
  fresh : ∀ id, s.count ≤ id → (s.opens id).phase = .failed ∧ (s.opens id).process = .none

theorem sound_new : new.Sound where
  limit := Nat.zero_le _
  alone _ h := nomatch h
  nodup := List.nodup_nil
  returned _ h := absurd h List.not_mem_nil
  index _ h := absurd h List.not_mem_nil
  running _ h := Process.noConfusion h
  fresh _ _ := ⟨rfl, rfl⟩

theorem Sound.accounted (h : s.Sound) : s.Accounted := by
  refine ⟨(Nat.le_add_right _ _).trans h.limit, fun id hphase hrunning => ?_,
    fun t ht t' ht' hkey => ?_, h.index⟩
  · refine (h.running id hrunning).resolve_left fun hspawned => ?_
    rcases hspawned with hspawned | hspawned | hspawned <;> rw [hspawned] at hphase <;> simp at hphase
  · have htoken : t.token = t'.token :=
      Option.some.inj ((h.index t ht).symm.trans ((congrArg s.byKey hkey).trans (h.index t' ht')))
    exact List.inj_on_of_nodup_map h.nodup ht ht' htoken

/-! ## Calls -/

theorem mem_admitted {id : ℕ} :
    id ∈ s.admitted ↔ id < s.count ∧ (s.opens id).phase.admitted = true := by
  rw [admitted, Finset.mem_filter, Finset.mem_range]

theorem Sound.lt_count (h : s.Sound) (hphase : (s.opens id).phase ≠ .failed) : id < s.count :=
  not_le.1 fun hle => hphase (h.fresh id hle).1

/-- A call goes on, with the same key. What matters is that it keeps track of its process, and that it
    was past the two looks before, or that they allow it. -/
theorem Sound.update (h : s.Sound) {call : Open} (hid : id < s.count)
    (hkey : call.key = (s.opens id).key)
    (hphase : (s.opens id).phase = .returned → call.phase = .returned)
    (hrunning : call.process = .running →
      Phase.Spawned call.phase ∨ ∃ t ∈ s.tunnels, t.token = id)
    (hlimit : call.phase.admitted = true → (s.opens id).phase.admitted = true ∨
      s.tunnels.length + s.admitted.card < maxTunnels)
    (halone : call.phase.sought = true → (∀ t ∈ s.tunnels, t.key ≠ (s.opens id).key) ∧
      ∀ id', (s.opens id').phase.sought = true → (s.opens id').key = (s.opens id).key → id' = id) :
    { s with opens := Function.update s.opens id call }.Sound where
  limit := by
    by_cases hmore : call.phase.admitted = true ∧ (s.opens id).phase.admitted = false
    · have hroom := (hlimit hmore.1).resolve_left (by simp [hmore.2])
      have hsub : { s with opens := Function.update s.opens id call }.admitted ⊆
          insert id s.admitted := by
        intro id' hid'
        rw [Finset.mem_insert, mem_admitted]
        obtain ⟨hlt, hadm⟩ := mem_admitted.1 hid'
        refine or_iff_not_imp_left.2 fun hne => ⟨hlt, ?_⟩
        dsimp only at hadm
        rwa [Function.update_of_ne hne] at hadm
      have hcard := (Finset.card_le_card hsub).trans (Finset.card_insert_le _ _)
      dsimp only at hcard ⊢
      omega
    · have hsub : { s with opens := Function.update s.opens id call }.admitted ⊆ s.admitted := by
        intro id' hid'
        obtain ⟨hlt, hadm⟩ := mem_admitted.1 hid'
        refine mem_admitted.2 ⟨hlt, ?_⟩
        dsimp only at hadm
        by_cases heq : id' = id
        · subst heq
          rw [Function.update_self] at hadm
          by_contra hno
          exact hmore ⟨hadm, Bool.eq_false_of_not_eq_true hno⟩
        · rwa [Function.update_of_ne heq] at hadm
      exact (Nat.add_le_add_left (Finset.card_le_card hsub) _).trans h.limit
  alone id' hid' := by
    -- the keys stay, and this call is alone for its own
    have hkeys (id') : (Function.update s.opens id call id').key = (s.opens id').key := by
      by_cases heq : id' = id
      · rw [heq, Function.update_self, hkey]
      · rw [Function.update_of_ne heq]
    have hthis (hsought : call.phase.sought = true) (id') (hid' : id' ≠ id)
        (hsought' : (s.opens id').phase.sought = true) : (s.opens id').key ≠ (s.opens id).key :=
      fun heq => hid' ((halone hsought).2 id' hsought' heq)
    dsimp only at hid' ⊢
    simp only [hkeys]
    by_cases heq : id' = id
    · subst heq
      rw [Function.update_self] at hid'
      refine ⟨(halone hid').1, fun id'' hid'' hsame => ?_⟩
      by_contra hne
      rw [Function.update_of_ne hne] at hid''
      exact hthis hid' id'' hne hid'' hsame
    · rw [Function.update_of_ne heq] at hid'
      refine ⟨(h.alone id' hid').1, fun id'' hid'' hsame => ?_⟩
      by_cases heq' : id'' = id
      · subst heq'
        rw [Function.update_self] at hid''
        exact absurd hsame.symm (hthis hid'' id' heq hid')
      · rw [Function.update_of_ne heq'] at hid''
        exact (h.alone id' hid').2 id'' hid'' hsame
  nodup := h.nodup
  returned t ht := by
    dsimp only
    by_cases heq : t.token = id
    · rw [heq, Function.update_self]
      exact hphase (heq ▸ h.returned t ht)
    · rw [Function.update_of_ne heq]
      exact h.returned t ht
  index := h.index
  running id' hid' := by
    dsimp only at hid' ⊢
    by_cases heq : id' = id
    · subst heq
      rw [Function.update_self] at hid' ⊢
      exact hrunning hid'
    · rw [Function.update_of_ne heq] at hid' ⊢
      exact h.running id' hid'
  fresh id' hid' := by
    dsimp only at hid' ⊢
    rw [Function.update_of_ne (by omega)]
    exact h.fresh id' hid'

theorem Sound.begin (h : s.Sound) (key : Key) (scheme : String) (userId : ℤ) :
    (s.begin key scheme userId).Sound := by
  rw [WebUIService.begin]
  split_ifs
  · exact h
  -- The number of the call is new: no tunnel has it, nor has it looked for one.
  have hnew {t : Tunnel} (ht : t ∈ s.tunnels) : t.token ≠ s.count := fun heq => by
    have hphase := h.returned t ht
    rw [heq, (h.fresh s.count le_rfl).1] at hphase
    exact Phase.noConfusion hphase
  have hold {id : ℕ} (hid : (Function.update s.opens s.count ⟨key, userId, .reuse, .none⟩
      id).phase.sought = true) : id ≠ s.count := fun heq => by
    rw [heq, Function.update_self] at hid
    exact nomatch hid
  refine ⟨(Nat.add_le_add_left (Finset.card_le_card fun id hid => ?_) _).trans h.limit,
    fun id hid => ?_, h.nodup, fun t ht => ?_, h.index, fun id hrunning => ?_, fun id hid => ?_⟩
  · obtain ⟨hlt, hadm⟩ := mem_admitted.1 hid
    have hne := hold (Phase.sought_of_admitted hadm)
    dsimp only at hlt hadm
    rw [Function.update_of_ne hne] at hadm
    exact mem_admitted.2 ⟨by omega, hadm⟩
  · dsimp only at hid ⊢
    have hne := hold hid
    rw [Function.update_of_ne hne] at hid ⊢
    refine ⟨(h.alone id hid).1, fun id' hid' hsame => ?_⟩
    have hne' := hold hid'
    rw [Function.update_of_ne hne'] at hid' hsame
    exact (h.alone id hid).2 id' hid' hsame
  · dsimp only
    rw [Function.update_of_ne (hnew ht)]
    exact h.returned t ht
  · dsimp only at hrunning ⊢
    by_cases heq : id = s.count
    · subst heq
      rw [Function.update_self] at hrunning
      exact Process.noConfusion hrunning
    · rw [Function.update_of_ne heq] at hrunning ⊢
      exact h.running id hrunning
  · dsimp only at hid ⊢
    rw [Function.update_of_ne (by omega)]
    exact h.fresh id (by omega)

/-! ## Closing -/

theorem mem_of_get {t : Tunnel} (h : s.get token = some t) : t ∈ s.tunnels ∧ t.token = token :=
  ⟨List.mem_of_find?_eq_some h, by simpa using List.find?_some h⟩

/-- A tunnel is closed with its process, and only it. -/
theorem Sound.closeLocked (h : s.Sound) (token : ℕ) : (s.closeLocked token).Sound := by
  rw [WebUIService.closeLocked]
  split
  · exact h
  rename_i t hget
  obtain ⟨ht, rfl⟩ := mem_of_get hget
  have hmem {t' : Tunnel} (ht' : t' ∈ s.tunnels.filter (·.token ≠ t.token)) :
      t' ∈ s.tunnels ∧ t'.token ≠ t.token := by simpa using ht'
  -- Closing a tunnel kills its process, and leaves its call as it was.
  have hcalls (id) : (Function.update s.opens t.token { s.opens t.token with
      process := (s.opens t.token).process.kill } id).phase = (s.opens id).phase ∧
      (Function.update s.opens t.token { s.opens t.token with
        process := (s.opens t.token).process.kill } id).key = (s.opens id).key := by
    by_cases heq : id = t.token
    · rw [heq, Function.update_self]
      exact ⟨rfl, rfl⟩
    · rw [Function.update_of_ne heq]
      exact ⟨rfl, rfl⟩
  refine ⟨(Nat.add_le_add (List.length_filter_le _ _) (Finset.card_le_card fun id hid => ?_)).trans
      h.limit, fun id hid => ?_, h.nodup.sublist (List.filter_sublist.map _), fun t' ht' => ?_,
    fun t' ht' => ?_, fun id hrunning => ?_, fun id hid => ?_⟩
  · obtain ⟨hlt, hadm⟩ := mem_admitted.1 hid
    dsimp only at hadm
    rw [(hcalls id).1] at hadm
    exact mem_admitted.2 ⟨hlt, hadm⟩
  · dsimp only at hid ⊢
    simp only [fun id => (hcalls id).1, fun id => (hcalls id).2] at hid ⊢
    exact ⟨fun t' ht' => (h.alone id hid).1 t' (hmem ht').1, (h.alone id hid).2⟩
  · obtain ⟨hold, hne⟩ := hmem ht'
    dsimp only
    rw [Function.update_of_ne hne]
    exact h.returned t' hold
  · obtain ⟨hold, hne⟩ := hmem ht'
    dsimp only
    rw [if_pos (h.index t ht), Function.update_of_ne]
    · exact h.index t' hold
    · intro hkey
      exact hne (Option.some.inj ((h.index t' hold).symm.trans (hkey ▸ h.index t ht)))
  · dsimp only at hrunning ⊢
    by_cases heq : id = t.token
    · subst heq
      rw [Function.update_self] at hrunning
      exact absurd hrunning (Process.kill_ne_running _)
    · rw [Function.update_of_ne heq] at hrunning ⊢
      refine (h.running id hrunning).imp_right fun ⟨t', ht', htoken⟩ => ⟨t', ?_, htoken⟩
      exact List.mem_filter.2 ⟨ht', decide_eq_true (htoken ▸ heq)⟩
  · have hne : id ≠ t.token := fun heq => by
      have hphase := h.returned t ht
      rw [← heq, (h.fresh id hid).1] at hphase
      exact Phase.noConfusion hphase
    dsimp only at hid ⊢
    rw [Function.update_of_ne hne]
    exact h.fresh id hid

theorem phase_closeLocked (token id : ℕ) : ((s.closeLocked token).opens id).phase = (s.opens id).phase := by
  rw [closeLocked]
  split
  · rfl
  · dsimp only
    by_cases heq : id = token
    · rw [heq, Function.update_self]
    · rw [Function.update_of_ne heq]

theorem key_closeLocked (token id : ℕ) : ((s.closeLocked token).opens id).key = (s.opens id).key := by
  rw [closeLocked]
  split
  · rfl
  · dsimp only
    by_cases heq : id = token
    · rw [heq, Function.update_self]
    · rw [Function.update_of_ne heq]

theorem mem_closeLocked {t : Tunnel} (h : t ∈ (s.closeLocked token).tunnels) :
    t ∈ s.tunnels ∧ t.token ≠ token := by
  rw [closeLocked] at h
  split at h
  · rename_i hget
    exact ⟨h, fun heq => by simpa [heq] using List.find?_eq_none.1 hget t h⟩
  · simpa using h

@[simp] theorem count_closeLocked (token : ℕ) : (s.closeLocked token).count = s.count := by
  rw [closeLocked]
  split <;> rfl

theorem Sound.closeByKey (h : s.Sound) (key : Key) : (s.closeByKey key).Sound := by
  rw [WebUIService.closeByKey]
  split
  · exact h
  · exact h.closeLocked _

theorem Sound.closeNext (h : s.Sound) (token : ℕ) : (s.closeNext token).Sound := by
  rw [WebUIService.closeNext]
  split_ifs
  · have hclosed := h.closeLocked token
    exact ⟨hclosed.limit, hclosed.alone, hclosed.nodup, hclosed.returned, hclosed.index,
      hclosed.running, hclosed.fresh⟩
  · exact h

/-! ## Opening -/

/-- The look for a tunnel finds the one of the key, if there is one. -/
theorem Sound.find (h : s.Sound) {key : Key} {t : Tunnel} (ht : t ∈ s.tunnels) (hkey : t.key = key) :
    ∃ t', (s.byKey key).bind s.get = some t' ∧ t'.token = t.token := by
  rw [← hkey, h.index t ht, Option.bind_some]
  cases hget : s.get t.token with
  | none => exact absurd (List.find?_eq_none.1 hget t ht) (by simp)
  | some t' => exact ⟨t', rfl, (mem_of_get hget).2⟩

/-- A call that does not go past a look goes on. -/
theorem Sound.setPhase (h : s.Sound) {phase : Phase} (hid : id < s.count)
    (hphase : (s.opens id).phase ≠ .returned)
    (hrunning : (s.opens id).process = .running → Phase.Spawned phase)
    (hsought : phase.sought = true → (s.opens id).phase.sought = true)
    (hadmitted : phase.admitted = true → (s.opens id).phase.admitted = true) :
    (s.setPhase id phase).Sound :=
  h.update hid rfl (fun hreturned => absurd hreturned hphase) (fun hrun => .inl (hrunning hrun))
    (fun hadm => .inl (hadmitted hadm)) fun hadm => h.alone id (hsought hadm)

/-- Before its process is started a call has none. -/
theorem Sound.early (h : s.Sound) (hearly : (s.opens id).phase.early = true) :
    id < s.count ∧ (s.opens id).phase ≠ .returned ∧ (s.opens id).process ≠ .running := by
  have hne {phase : Phase} (hphase : (s.opens id).phase = phase) : phase.early = true := hphase ▸ hearly
  have hreturned : (s.opens id).phase ≠ .returned := fun hphase => nomatch hne hphase
  refine ⟨h.lt_count fun hphase => (nomatch hne hphase), hreturned, fun hrunning => ?_⟩
  rcases h.running id hrunning with (hphase | hphase | hphase) | ⟨t, ht, rfl⟩
  · exact nomatch hne hphase
  · exact nomatch hne hphase
  · exact nomatch hne hphase
  · exact hreturned (h.returned t ht)

/-- A call that looks for a tunnel has the key for itself, if no other one has looked for it. -/
theorem Sound.seek (h : s.Sound) (hphase : (s.opens id).phase = .reuse)
    (hnone : ∀ t ∈ s.tunnels, t.key ≠ (s.opens id).key)
    (halone : ∀ id' < s.count, (s.opens id').phase.sought = true →
      (s.opens id').key ≠ (s.opens id).key) :
    (s.setPhase id .limit).Sound := by
  obtain ⟨hid, hreturned, hprocess⟩ := h.early (by rw [hphase]; rfl)
  refine h.update hid rfl (fun heq => absurd heq hreturned) (fun hrunning => absurd hrunning hprocess)
    (fun hadm => nomatch hadm) fun _ => ⟨hnone, fun id' hsought hkey => ?_⟩
  have hlt : id' < s.count := h.lt_count fun hfailed => by
    rw [hfailed] at hsought
    exact nomatch hsought
  exact absurd hkey (halone id' hlt hsought)

theorem Sound.reuse (h : s.Sound) (hguard : s.Guarded (.reuse id)) : (s.reuse id).Sound := by
  rw [WebUIService.reuse]
  split_ifs with hphase
  swap
  · exact h
  have halone := hguard hphase
  split
  · rename_i t hfound
    split_ifs
    · obtain ⟨hid, hreturned, hprocess⟩ := h.early (by rw [hphase]; rfl)
      exact h.setPhase hid hreturned (fun hrunning => absurd hrunning hprocess) nofun nofun
    · -- the tunnel that was found is closed, and the key has no other
      refine (h.closeLocked t.token).seek ((phase_closeLocked _ id).trans hphase) (fun t' ht' hkey => ?_)
        fun id' hid' => ?_
      · obtain ⟨ht', hne⟩ := mem_closeLocked ht'
        rw [key_closeLocked] at hkey
        obtain ⟨t'', hfound', htoken⟩ := h.find ht' hkey
        rw [hfound] at hfound'
        exact hne (htoken.symm.trans (congrArg Tunnel.token (Option.some.inj hfound').symm))
      · rw [count_closeLocked] at hid'
        rw [phase_closeLocked, key_closeLocked, key_closeLocked]
        exact halone id' hid'
  · rename_i hnone
    refine h.seek hphase (fun t ht hkey => ?_) halone
    obtain ⟨t', hfound, -⟩ := h.find ht hkey
    rw [hnone] at hfound
    exact nomatch hfound

/-- The look at the limit leaves room for the tunnel, and for those of the opens before it. -/
theorem Sound.limit_step (h : s.Sound) (hguard : s.Guarded (.limit id)) : (s.limit id).Sound := by
  by_cases hphase : (s.opens id).phase = .limit
  swap
  · rwa [WebUIService.limit, if_neg hphase]
  obtain ⟨hid, hreturned, hprocess⟩ := h.early (by rw [hphase]; rfl)
  rw [WebUIService.limit, if_pos hphase]
  by_cases hfull : maxTunnels ≤ s.tunnels.length
  · rw [if_pos hfull]
    exact h.setPhase hid hreturned (fun hrunning => absurd hrunning hprocess) nofun nofun
  · rw [if_neg hfull]
    have hroom := hguard hphase (not_le.1 hfull)
    exact h.update hid rfl (fun heq => absurd heq hreturned) (fun hrunning => absurd hrunning hprocess)
      (fun _ => .inr hroom) fun _ => h.alone id (by rw [hphase]; rfl)

theorem Sound.spawn (h : s.Sound) (id : ℕ) (succeeds : Bool) : (s.spawn id succeeds).Sound := by
  rw [WebUIService.spawn]
  split_ifs with hphase hsucceeds
  · obtain ⟨hid, hreturned, -⟩ := h.early (by rw [hphase]; rfl)
    exact h.update hid rfl (fun heq => absurd heq hreturned) (fun _ => .inl (.inl rfl))
      (fun _ => .inl (by rw [hphase]; rfl)) fun _ => h.alone id (by rw [hphase]; rfl)
  · obtain ⟨hid, hreturned, hprocess⟩ := h.early (by rw [hphase]; rfl)
    exact h.setPhase hid hreturned (fun hrunning => absurd hrunning hprocess) nofun nofun
  · exact h

theorem Sound.bind (h : s.Sound) (id : ℕ) (succeeds : Bool) : (s.bind id succeeds).Sound := by
  by_cases hphase : (s.opens id).phase = .bind
  swap
  · rwa [WebUIService.bind, if_neg hphase]
  have hid : id < s.count := h.lt_count (by rw [hphase]; exact nofun)
  have hreturned : (s.opens id).phase ≠ .returned := by
    rw [hphase]
    exact nofun
  rw [WebUIService.bind, if_pos hphase]
  cases succeeds
  · exact h.setPhase hid hreturned (fun _ => .inr (.inr rfl)) nofun nofun
  · exact h.setPhase hid hreturned (fun _ => .inr (.inl rfl)) (fun _ => by rw [hphase]; rfl)
      fun _ => by rw [hphase]; rfl

theorem Sound.terminated (h : s.Sound) (hguard : s.Guarded (.terminated id)) :
    (s.terminated id).Sound := by
  rw [WebUIService.terminated]
  split_ifs with hphase
  · refine h.setPhase (h.lt_count ?_) ?_ (fun hrunning => absurd hrunning (hguard hphase)) nofun nofun
    · rw [hphase]
      exact nofun
    · rw [hphase]
      exact nofun
  · exact h

theorem Sound.exit (h : s.Sound) (id : ℕ) : (s.exit id).Sound := by
  rw [WebUIService.exit]
  split_ifs with hrunning
  · refine h.update (not_le.1 fun hle => ?_) rfl (fun hreturned => hreturned)
      (fun hrun => Process.noConfusion hrun) .inl (h.alone id)
    exact Process.noConfusion (hrunning.symm.trans (h.fresh id hle).2)
  · exact h

/-- The tunnel of an open has its key for itself, and the room of the open. -/
theorem Sound.register (h : s.Sound) (id : ℕ) : (s.register id).Sound := by
  rw [WebUIService.register]
  split_ifs with hphase
  swap
  · exact h
  obtain ⟨halone, honly⟩ := h.alone id (by rw [hphase]; rfl)
  have hid : id < s.count := h.lt_count (by rw [hphase]; exact nofun)
  have hnew {t : Tunnel} (ht : t ∈ s.tunnels) : t.token ≠ id := fun heq =>
    Phase.noConfusion (hphase.symm.trans (heq ▸ h.returned t ht))
  have hopens : (s.setPhase id .returned).opens =
      Function.update s.opens id { s.opens id with phase := .returned } := rfl
  refine ⟨?_, fun id' hid' => ?_, ?_, fun t ht => ?_, fun t ht => ?_, fun id' hrunning => ?_,
    fun id' hid' => ?_⟩
  · -- the open is no longer among those that may register
    have hsub : { s.setPhase id .returned with
        tunnels := s.tunnels ++ [(⟨id, (s.opens id).key, (s.opens id).userId⟩ : Tunnel)]
        byKey := Function.update s.byKey (s.opens id).key (some id) }.admitted ⊆ s.admitted.erase id := by
      intro id' hid'
      obtain ⟨hlt, hadm⟩ := mem_admitted.1 hid'
      dsimp only at hadm
      rw [hopens] at hadm
      have hne : id' ≠ id := fun heq => by
        rw [heq, Function.update_self] at hadm
        exact nomatch hadm
      rw [Function.update_of_ne hne] at hadm
      exact Finset.mem_erase.2 ⟨hne, mem_admitted.2 ⟨hlt, hadm⟩⟩
    have hmem : id ∈ s.admitted := mem_admitted.2 ⟨hid, by rw [hphase]; rfl⟩
    have hcard := Finset.card_le_card hsub
    have hlimit := h.limit
    rw [Finset.card_erase_of_mem hmem] at hcard
    have hpos : 0 < s.admitted.card := Finset.card_pos.2 ⟨id, hmem⟩
    rw [List.length_append, List.length_singleton]
    omega
  · dsimp only at hid' ⊢
    rw [hopens] at hid' ⊢
    have hne : id' ≠ id := fun heq => by
      rw [heq, Function.update_self] at hid'
      exact nomatch hid'
    rw [Function.update_of_ne hne] at hid' ⊢
    refine ⟨fun t ht => ?_, fun id'' hid'' hkey => ?_⟩
    · rcases List.mem_append.1 ht with ht | ht
      · exact (h.alone id' hid').1 t ht
      · rw [List.mem_singleton.1 ht]
        exact fun hkey => hne (honly id' hid' hkey.symm)
    · have hne' : id'' ≠ id := fun heq => by
        rw [heq, Function.update_self] at hid''
        exact nomatch hid''
      rw [Function.update_of_ne hne'] at hid'' hkey
      exact (h.alone id' hid').2 id'' hid'' hkey
  · rw [List.map_append, List.nodup_append]
    refine ⟨h.nodup, List.nodup_singleton _, fun token htoken token' htoken' => ?_⟩
    obtain ⟨t, ht, rfl⟩ := List.mem_map.1 htoken
    obtain rfl := List.mem_singleton.1 htoken'
    exact hnew ht
  · dsimp only
    rw [hopens]
    rcases List.mem_append.1 ht with ht | ht
    · rw [Function.update_of_ne (hnew ht)]
      exact h.returned t ht
    · rw [List.mem_singleton.1 ht, Function.update_self]
  · dsimp only
    rcases List.mem_append.1 ht with ht | ht
    · rw [Function.update_of_ne (halone t ht)]
      exact h.index t ht
    · rw [List.mem_singleton.1 ht, Function.update_self]
  · dsimp only at hrunning ⊢
    rw [hopens] at hrunning ⊢
    by_cases heq : id' = id
    · exact .inr ⟨_, List.mem_append_right _ (List.mem_singleton_self _), heq.symm⟩
    · rw [Function.update_of_ne heq] at hrunning ⊢
      exact (h.running id' hrunning).imp_right fun ⟨t, ht, htoken⟩ =>
        ⟨t, List.mem_append_left _ ht, htoken⟩
  · have hle : s.count ≤ id' := hid'
    dsimp only
    rw [hopens, Function.update_of_ne (by omega)]
    exact h.fresh id' hle

/-! ## Runs -/

theorem Sound.step (h : s.Sound) {event : Event} (hguard : s.Guarded event) : (s.step event).Sound := by
  rcases event with ⟨key, scheme, userId⟩ | id | id | ⟨id, succeeds⟩ | ⟨id, succeeds⟩ | id | id | id |
    token | key | labId | _ | token
  case begin => exact h.begin key scheme userId
  case reuse => exact h.reuse hguard
  case limit => exact h.limit_step hguard
  case spawn => exact h.spawn id succeeds
  case bind => exact h.bind id succeeds
  case terminated => exact h.terminated hguard
  case register => exact h.register id
  case exit => exact h.exit id
  case close => exact h.closeLocked token
  case closeByKey => exact h.closeByKey key
  case closeLab => exact ⟨h.limit, h.alone, h.nodup, h.returned, h.index, h.running, h.fresh⟩
  case shutdown => exact ⟨h.limit, h.alone, h.nodup, h.returned, h.index, h.running, h.fresh⟩
  case closeNext => exact h.closeNext token

/-- If no two opens of a key overlap, those that are past the limit have room, and what is terminated
    exits in time, all tunnels are accounted for. -/
theorem accounted_run {events : List Event} (h : Machine.GuardedRun step Guarded new events) :
    (Machine.run step new events).Accounted :=
  (h.invariant sound_new fun _ _ hsound hguard => hsound.step hguard).accounted

/-- A port of a device. -/
def key (port : ℤ) : Key := ⟨"lab", "r1", port⟩

/-- A call of open, up to its registration. -/
def opened (id : ℕ) (port : ℤ) (userId : ℤ) : List Event :=
  [.begin (key port) "https" userId, .reuse id, .limit id, .spawn id true, .bind id true]

/-- Two opens of different ports at once, one that reuses a tunnel, and one of another user, whose
    process does not bind. -/
def reused : List Event :=
  opened 0 443 1 ++ opened 1 8443 1 ++ [.register 0, .register 1] ++
    [.begin (key 443) "https" 1, .reuse 2] ++
    [.begin (key 443) "https" 2, .reuse 3, .limit 3, .spawn 3 true, .bind 3 false, .exit 3, .terminated 3]

theorem accounted_reused : (Machine.run step new reused).Accounted :=
  accounted_run (by decide +kernel)

/-- Two opens of one port at once. -/
def twice : List Event := opened 0 443 1 ++ opened 1 443 1 ++ [.register 0, .register 1]

theorem not_accounted_twice : ¬(Machine.run step new twice).Accounted := by
  intro h
  have heq := h.unique ⟨0, key 443, 1⟩ (by decide) ⟨1, key 443, 1⟩ (by decide) rfl
  revert heq
  decide

end WebUIService

end Dnlab.Gui.Webui
