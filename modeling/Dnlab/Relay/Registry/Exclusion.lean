import Dnlab.Relay.Registry
import Mathlib.Tactic.SplitIfs

/-!
# One process for a console

In every run, an open broker is the one of the registry. A process that a broker has
is ended before the broker leaves the registry, so it is gone when there is a
replacement. But a broker may be closed after the container has answered its thread:
the thread starts the process all the same, and when it finds the broker closed it
tells the process to end, but does not wait for that. Unless this happens, a process
is only started when no other one runs and all cleanup is done (`one_upstream`).
-/

namespace Dnlab.Relay

namespace Upstream

variable {upstream : Upstream} {starting : Prop}

/-- The process runs, but the broker does not have it. -/
def Stray (upstream : Upstream) : Prop :=
  upstream.process = .alive ∧ (upstream.poll = .spawned ∨ upstream.poll = .terminated)

/-- The cleanup is over, and the broker has left the registry. -/
def Removed (upstream : Upstream) : Prop :=
  upstream.closing = .signalling ∨ upstream.closing = .cleanupDone

/-- A process that runs is stray, or the broker has it, or it is being ended. -/
structure Sound (upstream : Upstream) : Prop where
  unclosed : upstream.closing = .unclosed ↔ upstream.closed = false
  proc : upstream.proc = true → upstream.closed = false
  alive : upstream.process = .alive →
    upstream.Stray ∨ upstream.proc = true ∨ upstream.closing = .stopping true

theorem sound_new : new.Sound :=
  ⟨⟨fun _ => rfl, fun _ => rfl⟩, fun h => Bool.noConfusion h, fun h => Process.noConfusion h⟩

/-- After the removal, only a stray process runs. -/
theorem Sound.stray (h : upstream.Sound) (hremoved : upstream.Removed)
    (halive : upstream.process = .alive) : upstream.Stray := by
  have hclosed : upstream.closed ≠ false := fun hopen => by
    rw [Removed, h.unclosed.2 hopen] at hremoved
    rcases hremoved with h | h <;> exact Closing.noConfusion h
  rcases h.alive halive with hstray | hproc | hstopping
  · exact hstray
  · exact absurd (h.proc hproc) hclosed
  · rw [Removed, hstopping] at hremoved
    rcases hremoved with h | h <;> exact Closing.noConfusion h

/-- What a step of a broker may not do: break what is sound, open it again, undo its removal, or
    start a process unless it is `starting`. -/
structure Keeps (starting : Prop) (upstream upstream' : Upstream) : Prop where
  sound : upstream.Sound → upstream'.Sound
  opened : upstream'.closed = false → upstream.closed = false
  removed : upstream.Sound → upstream.Removed → upstream'.Removed
  alive : upstream'.process = .alive → upstream.process = .alive ∨ starting

theorem Keeps.refl (upstream : Upstream) : Keeps starting upstream upstream := ⟨id, id, fun _ => id, .inl⟩

/-- The thread goes on, without a process. -/
theorem keeps_poll {poll : Poll} (hspawned : upstream.poll ≠ .spawned)
    (hterminated : upstream.poll ≠ .terminated) : Keeps starting upstream { upstream with poll } := by
  refine ⟨fun h => ⟨h.unclosed, h.proc, fun halive => ?_⟩, id, fun _ => id, .inl⟩
  rcases h.alive halive with ⟨-, hpoll⟩ | hkept
  · exact absurd hpoll (not_or.2 ⟨hspawned, hterminated⟩)
  · exact .inr hkept

theorem keeps_check (upstream : Upstream) : Keeps False upstream upstream.check := by
  rw [check]
  split
  · rename_i hpoll
    exact keeps_poll (by simp [hpoll]) (by simp [hpoll])
  · exact .refl upstream

theorem keeps_probe (upstream : Upstream) (answer : Answer) :
    Keeps False upstream (upstream.probe answer) := by
  rw [probe.eq_def]
  split
  · rename_i hpoll
    exact keeps_poll (by simp [hpoll]) (by simp [hpoll])
  · exact .refl upstream

/-- A process is stray when it is started. -/
theorem keeps_spawn (upstream : Upstream) (succeeds : Bool) :
    Keeps (upstream.poll = .ready) upstream (upstream.spawn succeeds) := by
  rw [spawn]
  split
  · rename_i hpoll
    split_ifs
    · exact ⟨fun h => ⟨h.unclosed, h.proc, fun _ => .inl ⟨rfl, .inl rfl⟩⟩, id, fun _ => id,
        fun _ => .inr hpoll⟩
    · exact keeps_poll (by simp [hpoll]) (by simp [hpoll])
  · exact .refl upstream

theorem keeps_register (upstream : Upstream) : Keeps False upstream upstream.register := by
  rw [register]
  split
  · split_ifs with hclosed
    · -- The process that is told to end stays stray.
      refine ⟨fun h => ⟨h.unclosed, h.proc, fun halive => ?_⟩, id, fun _ => id, .inl⟩
      exact (h.alive halive).imp_left fun hstray => ⟨hstray.1, .inr rfl⟩
    · rw [Bool.not_eq_true] at hclosed
      exact ⟨fun h => ⟨h.unclosed, fun _ => hclosed, fun _ => .inr (.inl rfl)⟩, id, fun _ => id, .inl⟩
  · exact .refl upstream

theorem keeps_exit (upstream : Upstream) : Keeps False upstream upstream.exit := by
  rw [exit]
  split
  · exact ⟨fun h => ⟨h.unclosed, h.proc, fun halive => Process.noConfusion halive⟩, id, fun _ => id,
      fun halive => Process.noConfusion halive⟩
  · exact .refl upstream

theorem keeps_close (upstream : Upstream) : Keeps False upstream upstream.close := by
  rw [close]
  split_ifs with hclosed
  · exact .refl upstream
  · rw [Bool.not_eq_true] at hclosed
    refine ⟨fun h => ⟨?_, fun hproc => Bool.noConfusion hproc, fun halive => ?_⟩,
      fun _ => hclosed, fun h hremoved => ?_, .inl⟩
    · exact ⟨fun h => Closing.noConfusion h, fun h => Bool.noConfusion h⟩
    · -- What the broker has is what is being ended.
      rcases h.alive halive with hstray | hproc | hstopping
      · exact .inl hstray
      · exact .inr (.inr (congrArg Closing.stopping hproc))
      · exact Closing.noConfusion (hstopping.symm.trans (h.unclosed.2 hclosed))
    · rw [Removed, h.unclosed.2 hclosed] at hremoved
      rcases hremoved with h | h <;> exact Closing.noConfusion h

/-- The closing goes on. -/
theorem keeps_closing {closing : Closing} (hbefore : upstream.closing ≠ .unclosed)
    (hafter : closing ≠ .unclosed)
    (hstopped : upstream.closing = .stopping true → upstream.process ≠ .alive)
    (hremoved : upstream.Removed → closing = .signalling ∨ closing = .cleanupDone) :
    Keeps starting upstream { upstream with closing } := by
  refine ⟨fun h => ⟨?_, h.proc, fun halive => ?_⟩, id, fun _ => hremoved, .inl⟩
  · exact ⟨fun h => absurd h hafter, fun hopen => absurd (h.unclosed.2 hopen) hbefore⟩
  · rcases h.alive halive with hstray | hproc | hstopping
    · exact .inl hstray
    · exact .inr (.inl hproc)
    · exact absurd halive (hstopped hstopping)

theorem exit_closing (upstream : Upstream) : upstream.exit.closing = upstream.closing := by
  rw [exit]
  split <;> rfl

theorem exit_process_ne (upstream : Upstream) : upstream.exit.process ≠ .alive := by
  rw [exit]
  split
  · exact Process.noConfusion
  · assumption

theorem Keeps.trans {upstream' upstream'' : Upstream} (h : Keeps False upstream upstream')
    (h' : Keeps False upstream' upstream'') : Keeps False upstream upstream'' :=
  ⟨fun hsound => h'.sound (h.sound hsound), fun hopen => h.opened (h'.opened hopen),
    fun hsound hremoved => h'.removed (h.sound hsound) (h.removed hsound hremoved),
    fun halive => (h'.alive halive).elim h.alive .inr⟩

/-- The process ends before the cleanup. -/
theorem keeps_stop (upstream : Upstream) : Keeps False upstream upstream.stop := by
  rw [stop]
  split
  · rename_i hstopping
    rw [← exit_closing] at hstopping
    refine (keeps_exit upstream).trans (keeps_closing ?_ Closing.noConfusion ?_ fun hremoved => ?_)
    · simp [hstopping]
    · exact fun _ => exit_process_ne upstream
    · simp [Removed, hstopping] at hremoved
  · rename_i hstopping
    refine keeps_closing ?_ Closing.noConfusion ?_ fun hremoved => ?_
    · simp [hstopping]
    · simp [hstopping]
    · simp [Removed, hstopping] at hremoved
  · exact .refl upstream

theorem keeps_cleanup (upstream : Upstream) : Keeps False upstream upstream.cleanup := by
  rw [cleanup]
  split
  · rename_i hcleaning
    refine keeps_closing ?_ Closing.noConfusion ?_ fun hremoved => ?_
    · simp [hcleaning]
    · simp [hcleaning]
    · simp [Removed, hcleaning] at hremoved
  · exact .refl upstream

theorem keeps_removed (upstream : Upstream) : Keeps False upstream upstream.removed := by
  rw [removed]
  split
  · rename_i hremoving
    refine keeps_closing ?_ Closing.noConfusion ?_ fun _ => .inl rfl
    · simp [hremoving]
    · simp [hremoving]
  · exact .refl upstream

theorem keeps_signal (upstream : Upstream) : Keeps False upstream upstream.signal := by
  rw [signal]
  split
  · rename_i hsignalling
    refine keeps_closing ?_ Closing.noConfusion ?_ fun _ => .inr rfl
    · simp [hsignalling]
    · simp [hsignalling]
  · exact .refl upstream

end Upstream

namespace Registry

open Function (update)

variable {registry : Registry} {event : Event} {id : ℕ} {f : Upstream → Upstream}
  {starting : Upstream → Prop}

/-! ## The registry -/

/-- An open broker is the one of the registry, and one that is not there was removed. -/
structure Sound (registry : Registry) : Prop where
  fresh : ∀ id, registry.count ≤ id → registry.upstreams id = none
  sound : ∀ id upstream, registry.upstreams id = some upstream → upstream.Sound
  opened : ∀ id upstream, registry.upstreams id = some upstream → upstream.closed = false →
    registry.broker = some id
  removed : ∀ id upstream, registry.upstreams id = some upstream → registry.broker ≠ some id →
    upstream.Removed

theorem sound_new : new.Sound := by
  refine ⟨fun _ _ => rfl, fun _ _ h => ?_, fun _ _ h => ?_, fun _ _ h => ?_⟩ <;>
    exact absurd h.symm (Option.some_ne_none _)

/-- What was done to the broker that is found afterwards. -/
theorem onBroker_upstreams {id' : ℕ} {upstream' : Upstream}
    (h : (registry.onBroker id f).upstreams id' = some upstream') :
    (id' = id ∧ ∃ upstream, registry.upstreams id = some upstream ∧ f upstream = upstream') ∨
      id' ≠ id ∧ registry.upstreams id' = some upstream' := by
  rw [onBroker] at h
  by_cases heq : id' = id
  · subst heq
    dsimp only at h
    rw [Function.update_self, Option.map_eq_some_iff] at h
    exact .inl ⟨rfl, h⟩
  · dsimp only at h
    rw [Function.update_of_ne heq] at h
    exact .inr ⟨heq, h⟩

theorem Sound.onBroker (h : registry.Sound)
    (hkeeps : ∀ upstream, Upstream.Keeps (starting upstream) upstream (f upstream)) (id : ℕ) :
    (registry.onBroker id f).Sound := by
  refine ⟨fun id' hfresh => ?_, fun id' upstream' hget => ?_, fun id' upstream' hget hopen => ?_,
    fun id' upstream' hget hbroker => ?_⟩
  · rcases hget : (registry.onBroker id f).upstreams id' with _ | upstream'
    · rfl
    · rcases onBroker_upstreams hget with ⟨rfl, upstream, hold, -⟩ | ⟨-, hold⟩
      · exact absurd (hold.symm.trans (h.fresh id' hfresh)) (Option.some_ne_none _)
      · exact absurd (hold.symm.trans (h.fresh id' hfresh)) (Option.some_ne_none _)
  · rcases onBroker_upstreams hget with ⟨-, upstream, hold, rfl⟩ | ⟨-, hold⟩
    · exact (hkeeps upstream).sound (h.sound id upstream hold)
    · exact h.sound id' upstream' hold
  · rcases onBroker_upstreams hget with ⟨rfl, upstream, hold, rfl⟩ | ⟨-, hold⟩
    · exact h.opened id' upstream hold ((hkeeps upstream).opened hopen)
    · exact h.opened id' upstream' hold hopen
  · rcases onBroker_upstreams hget with ⟨rfl, upstream, hold, rfl⟩ | ⟨-, hold⟩
    · exact (hkeeps upstream).removed (h.sound id' upstream hold) (h.removed id' upstream hold hbroker)
    · exact h.removed id' upstream' hold hbroker

/-- There is no open broker when a new one is created. -/
theorem Sound.create (h : registry.Sound) (hnone : registry.broker = none) :
    registry.create.Sound := by
  have hcases : ∀ id upstream, registry.create.upstreams id = some upstream →
      id = registry.count ∧ upstream = .new ∨
        id ≠ registry.count ∧ registry.upstreams id = some upstream := by
    intro id upstream hget
    rw [Registry.create] at hget
    dsimp only at hget
    by_cases heq : id = registry.count
    · rw [heq, Function.update_self] at hget
      exact .inl ⟨heq, (Option.some.inj hget).symm⟩
    · rw [Function.update_of_ne heq] at hget
      exact .inr ⟨heq, hget⟩
  have hold : ∀ id, registry.broker ≠ some id := fun id hid =>
    Option.some_ne_none id (hid.symm.trans hnone)
  refine ⟨fun id hfresh => ?_, fun id upstream hget => ?_, fun id upstream hget hopen => ?_,
    fun id upstream hget hbroker => ?_⟩
  · have hlt : registry.count + 1 ≤ id := hfresh
    rw [Registry.create]
    dsimp only
    rw [Function.update_of_ne (by omega)]
    exact h.fresh id (by omega)
  · rcases hcases id upstream hget with ⟨-, rfl⟩ | ⟨-, hget⟩
    · exact Upstream.sound_new
    · exact h.sound id upstream hget
  · rcases hcases id upstream hget with ⟨rfl, -⟩ | ⟨-, hget⟩
    · rfl
    · exact absurd (h.opened id upstream hget hopen) (hold id)
  · rcases hcases id upstream hget with ⟨rfl, -⟩ | ⟨-, hget⟩
    · exact absurd rfl hbroker
    · exact h.removed id upstream hget (hold id)

/-- Requests do not matter. -/
theorem Sound.of_eq {registry' : Registry} (h : registry.Sound)
    (hbroker : registry'.broker = registry.broker)
    (hupstreams : registry'.upstreams = registry.upstreams)
    (hcount : registry'.count = registry.count) : registry'.Sound := by
  refine ⟨?_, ?_, ?_, ?_⟩
  · rw [hcount, hupstreams]
    exact h.fresh
  · rw [hupstreams]
    exact h.sound
  · rw [hbroker, hupstreams]
    exact h.opened
  · rw [hbroker, hupstreams]
    exact h.removed

/-- A request creates a broker if there is none, and does nothing else with brokers. -/
theorem get_cases (registry : Registry) (request : ℕ) :
    ∃ requests, registry.get request = { registry with requests } ∨
      registry.requests request = .asking ∧ registry.broker = none ∧
        registry.get request = { registry.create with requests } := by
  rw [get]
  split
  · rename_i hasking
    by_cases hnone : registry.broker = none
    · dsimp only
      rw [if_pos hnone]
      exact ⟨_, .inr ⟨hasking, hnone, rfl⟩⟩
    · dsimp only
      rw [if_neg hnone]
      split
      · exact ⟨registry.requests, .inl rfl⟩
      · exact ⟨_, .inl rfl⟩
  · exact ⟨registry.requests, .inl rfl⟩

theorem wake_cases (registry : Registry) (request : ℕ) :
    ∃ requests, registry.wake request = { registry with requests } := by
  rw [wake]
  split
  · split_ifs
    · exact ⟨_, rfl⟩
    · exact ⟨registry.requests, rfl⟩
  · exact ⟨registry.requests, rfl⟩

/-- A broker leaves the registry when it is closed. -/
theorem Sound.remove (h : registry.Sound) (id : ℕ) : (registry.remove id).Sound := by
  by_cases hremoving : (registry.upstreams id).map Upstream.closing = some .removing
  · have hkept := h.onBroker Upstream.keeps_removed id
    obtain ⟨upstream, hget, hclosing⟩ := Option.map_eq_some_iff.1 hremoving
    have hself : (registry.onBroker id Upstream.removed).upstreams id = some upstream.removed := by
      rw [Registry.onBroker]
      dsimp only
      rw [Function.update_self, hget, Option.map_some]
    rw [Registry.remove, if_pos hremoving]
    refine ⟨hkept.fresh, hkept.sound, fun id' upstream' hget' hopen => ?_,
      fun id' upstream' hget' hbroker => ?_⟩
    · -- The one that leaves is closed, so it is not the open one.
      have hbroker : registry.broker = some id' := hkept.opened id' upstream' hget' hopen
      dsimp only
      rw [if_neg]
      · exact hbroker
      · intro hself'
        obtain rfl : id' = id := Option.some.inj (hbroker.symm.trans hself')
        obtain rfl := Option.some.inj (hself.symm.trans hget')
        have hunclosed := (h.sound id' upstream hget).unclosed.2
          ((Upstream.keeps_removed upstream).opened hopen)
        exact Closing.noConfusion (hclosing.symm.trans hunclosed)
    · by_cases heq : id' = id
      · subst heq
        obtain rfl := Option.some.inj (hself.symm.trans hget')
        rw [Upstream.removed, hclosing]
        exact .inl rfl
      · refine hkept.removed id' upstream' hget' fun hbroker' => hbroker ?_
        have hbroker' : registry.broker = some id' := hbroker'
        dsimp only
        rw [hbroker', if_neg fun h => heq (Option.some.inj h)]
  · rw [Registry.remove, if_neg hremoving]
    exact h

theorem Sound.step (h : registry.Sound) (event : Event) : (registry.step event).Sound := by
  rcases event with request | request | id | ⟨id, answer⟩ | ⟨id, succeeds⟩ | id | id | id | id | id |
    id | id
  case get =>
    obtain ⟨requests, heq | ⟨-, hnone, heq⟩⟩ := get_cases registry request
    · rw [Registry.step, heq]
      exact h.of_eq rfl rfl rfl
    · rw [Registry.step, heq]
      exact (h.create hnone).of_eq rfl rfl rfl
  case wake =>
    obtain ⟨requests, heq⟩ := wake_cases registry request
    rw [Registry.step, heq]
    exact h.of_eq rfl rfl rfl
  case check => exact h.onBroker Upstream.keeps_check id
  case probe => exact h.onBroker (Upstream.keeps_probe · answer) id
  case spawn => exact h.onBroker (Upstream.keeps_spawn · succeeds) id
  case register => exact h.onBroker Upstream.keeps_register id
  case exit => exact h.onBroker Upstream.keeps_exit id
  case close => exact h.onBroker Upstream.keeps_close id
  case stop => exact h.onBroker Upstream.keeps_stop id
  case cleanup => exact h.onBroker Upstream.keeps_cleanup id
  case remove => exact h.remove id
  case signal => exact h.onBroker Upstream.keeps_signal id

theorem Sound.run (h : registry.Sound) (events : List Event) : (registry.run events).Sound := by
  induction events generalizing registry with
  | nil => exact h
  | cons event events ih => exact ih (h.step event)

/-! ## Processes -/

/-- A process is only started for an open broker, and a replacement is only created when no broker
    before it has a process that its thread has not handed over. -/
def Guarded (registry : Registry) : Event → Prop
  | .get request => registry.requests request = .asking → registry.broker = none →
      ∀ id upstream, registry.upstreams id = some upstream → ¬ upstream.Stray
  | .spawn id _ => ∀ upstream, registry.upstreams id = some upstream → upstream.poll = .ready →
      upstream.closed = false
  | _ => True

def GuardedRun : Registry → List Event → Prop
  | _, [] => True
  | registry, event :: events => registry.Guarded event ∧ GuardedRun (registry.step event) events

/-- Next to the broker of the registry, no process runs. -/
def Exclusive (registry : Registry) : Prop :=
  ∀ id, registry.broker = some id → ∀ id' upstream, id' ≠ id →
    registry.upstreams id' = some upstream → upstream.process ≠ .alive

/-- Only the broker of the registry may start a process. -/
theorem Exclusive.onBroker (h : registry.Exclusive)
    (hkeeps : ∀ upstream, Upstream.Keeps (starting upstream) upstream (f upstream))
    (hstarting : ∀ upstream, registry.upstreams id = some upstream → starting upstream →
      registry.broker = some id) : (registry.onBroker id f).Exclusive := by
  intro id₀ hbroker id' upstream' hne hget halive
  have hbroker : registry.broker = some id₀ := hbroker
  rcases onBroker_upstreams hget with ⟨rfl, upstream, hold, rfl⟩ | ⟨-, hold⟩
  · rcases (hkeeps upstream).alive halive with halive | hstart
    · exact h id₀ hbroker id' upstream hne hold halive
    · exact hne (Option.some.inj ((hstarting upstream hold hstart).symm.trans hbroker))
  · exact h id₀ hbroker id' upstream' hne hold halive

/-- A step that starts no process. -/
theorem Exclusive.quiet (h : registry.Exclusive) (hkeeps : ∀ upstream, Upstream.Keeps False upstream (f upstream))
    (id : ℕ) : (registry.onBroker id f).Exclusive :=
  h.onBroker hkeeps fun _ _ hfalse => hfalse.elim

/-- The processes of the brokers before are gone. -/
theorem Sound.exclusive_create (h : registry.Sound) (hnone : registry.broker = none)
    (hstray : ∀ id upstream, registry.upstreams id = some upstream → ¬ upstream.Stray) :
    registry.create.Exclusive := by
  intro id hbroker id' upstream hne hget halive
  obtain rfl : registry.count = id := Option.some.inj hbroker
  rw [Registry.create] at hget
  dsimp only at hget
  rw [Function.update_of_ne hne] at hget
  have hremoved := h.removed id' upstream hget (by simp [hnone])
  exact hstray id' upstream hget ((h.sound id' upstream hget).stray hremoved halive)

theorem Exclusive.remove (h : registry.Exclusive) (id : ℕ) : (registry.remove id).Exclusive := by
  by_cases hremoving : (registry.upstreams id).map Upstream.closing = some .removing
  · rw [Registry.remove, if_pos hremoving]
    intro id₀ hbroker
    dsimp only at hbroker
    split_ifs at hbroker
    exact h.quiet Upstream.keeps_removed id id₀ hbroker
  · rw [Registry.remove, if_neg hremoving]
    exact h

theorem Exclusive.step (h : registry.Exclusive) (hsound : registry.Sound)
    (hguarded : registry.Guarded event) : (registry.step event).Exclusive := by
  rcases event with request | request | id | ⟨id, answer⟩ | ⟨id, succeeds⟩ | id | id | id | id | id |
    id | id
  case get =>
    obtain ⟨requests, heq | ⟨hasking, hnone, heq⟩⟩ := get_cases registry request
    · rw [Registry.step, heq]
      exact h
    · rw [Registry.step, heq]
      exact hsound.exclusive_create hnone (hguarded hasking hnone)
  case wake =>
    obtain ⟨requests, heq⟩ := wake_cases registry request
    rw [Registry.step, heq]
    exact h
  case check => exact h.quiet Upstream.keeps_check id
  case probe => exact h.quiet (Upstream.keeps_probe · answer) id
  case spawn =>
    refine h.onBroker (Upstream.keeps_spawn · succeeds) fun upstream hget hready => ?_
    exact hsound.opened id upstream hget (hguarded upstream hget hready)
  case register => exact h.quiet Upstream.keeps_register id
  case exit => exact h.quiet Upstream.keeps_exit id
  case close => exact h.quiet Upstream.keeps_close id
  case stop => exact h.quiet Upstream.keeps_stop id
  case cleanup => exact h.quiet Upstream.keeps_cleanup id
  case remove => exact h.remove id
  case signal => exact h.quiet Upstream.keeps_signal id

theorem Exclusive.run {events : List Event} (h : registry.Exclusive) (hsound : registry.Sound)
    (hguarded : GuardedRun registry events) : (registry.run events).Exclusive := by
  induction events generalizing registry with
  | nil => exact h
  | cons event events ih => exact ih (h.step hsound hguarded.1) (hsound.step event) hguarded.2

/-- The thread of the broker is about to start a process. -/
def Starting (registry : Registry) (id : ℕ) : Prop :=
  ∃ upstream, registry.upstreams id = some upstream ∧ upstream.poll = .ready

/-- An open broker is the one of the registry. And unless processes are started for closed brokers, or
    a broker is replaced before such a process is gone, a process is only started when that of no
    other broker runs, and all closed brokers are cleaned up. -/
theorem one_upstream {events : List Event} (hguarded : GuardedRun new events) :
    (∀ id upstream, (new.run events).upstreams id = some upstream → upstream.closed = false →
      (new.run events).broker = some id) ∧
    ∀ id, (new.run events).Guarded (.spawn id true) → (new.run events).Starting id →
      ∀ id' upstream, (new.run events).upstreams id' = some upstream →
        (id' ≠ id → upstream.process ≠ .alive) ∧ (upstream.closed = true → upstream.Removed) := by
  have hsound := sound_new.run events
  refine ⟨hsound.opened, fun id hspawn ⟨started, hstarted, hready⟩ id' upstream hget => ?_⟩
  have hopen := hspawn started hstarted hready
  have hbroker := hsound.opened id started hstarted hopen
  refine ⟨fun hne => ?_, fun hclosed => ?_⟩
  · refine Exclusive.run (fun _ hbroker => ?_) sound_new hguarded id hbroker id' upstream hne hget
    exact absurd hbroker.symm (Option.some_ne_none _)
  · refine hsound.removed id' upstream hget fun hbroker' => ?_
    obtain rfl : id = id' := Option.some.inj (hbroker.symm.trans hbroker')
    obtain rfl := Option.some.inj (hstarted.symm.trans hget)
    exact absurd (hclosed.symm.trans hopen) (by simp)

/-- A broker that is replaced once its console was used. -/
def replaced : List Event :=
  [.get 0, .check 0, .probe 0 .ready, .spawn 0 true, .register 0, .close 0, .stop 0, .cleanup 0,
    .remove 0, .get 1, .check 1, .probe 1 .ready]

/-- What is left of the first broker. -/
def left : Upstream := ⟨true, false, .finished, .ended, .signalling⟩

theorem one_upstream_replaced :
    (new.run replaced).broker = some 1 ∧ (new.run replaced).Starting 1 ∧
      left.process ≠ .alive ∧ left.Removed := by
  have hready : (new.run replaced).upstreams 1 = some ⟨false, false, .ready, .unborn, .unclosed⟩ := by
    decide
  have hstarting : (new.run replaced).Starting 1 := ⟨_, hready, rfl⟩
  have hguarded : GuardedRun new replaced := by
    refine ⟨?_, trivial, trivial, ?_, trivial, trivial, trivial, trivial, trivial, ?_, trivial,
      trivial, trivial⟩
    · exact fun _ _ _ _ hget => absurd hget.symm (Option.some_ne_none _)
    · rintro upstream hget -
      obtain rfl := Option.some.inj hget
      rfl
    · rintro - - id upstream hget ⟨halive, -⟩
      -- There is only the first broker.
      rcases id with _ | id
      · obtain rfl := Option.some.inj hget
        exact Process.noConfusion halive
      · exact Option.some_ne_none _ hget.symm
  have hspawn : (new.run replaced).Guarded (.spawn 1 true) := by
    rintro upstream hget -
    obtain rfl := Option.some.inj (hready.symm.trans hget)
    rfl
  have hleft := (one_upstream hguarded).2 1 hspawn hstarting 0 left (by decide)
  exact ⟨(one_upstream hguarded).1 1 _ hready rfl, hstarting, hleft.1 (by decide), hleft.2 rfl⟩

/-- A broker that is closed when the container has answered its thread. -/
def late : List Event :=
  [.get 0, .check 0, .probe 0 .ready, .close 0, .stop 0, .cleanup 0, .remove 0, .get 1, .check 1,
    .probe 1 .ready, .spawn 1 true, .register 1]

/-- The thread starts a process next to that of the replacement. -/
theorem started_beside :
    (new.run late).Starting 0 ∧
      ((new.run late).upstreams 1).map Upstream.process = some .alive ∧
        (((new.run late).step (.spawn 0 true)).upstreams 0).map Upstream.process = some .alive :=
  ⟨⟨⟨true, false, .ready, .unborn, .signalling⟩, by decide⟩, by decide, by decide⟩

end Registry

end Dnlab.Relay
