import Dnlab.Services.RuntimeLinks.Network

/-!
# How far a creation comes

Every command may fail, but for those that undo another one; a command that
fails changes nothing. A program that runs commands one after the other performs
a list of tasks (`Follows`), up to the first that fails (`progress`). One that
handles a failure in its second part, and then takes back what it did, performs
the tasks of both parts, and ends with what undoes them if it had come to the
second (`Guarded`).
-/

namespace Dnlab.RuntimeLinks

open Prog (Triple)

/-- How a command ends: it succeeds, or returns an exit code other than zero, or breaks off. -/
inductive Fate
  | done
  | refused (rc : ℕ) (err : String)
  | broken (e : Err)

/-- The network, and how the next commands end; those after them succeed. -/
structure World where
  net : Net
  fates : List Fate := []

/-- The answer to a command. -/
def answer (host : String) (cmd : Cmd) (w : World) : Except Err Reply × World :=
  let done : Except Err Reply := .ok ⟨0, "", ""⟩
  -- Nothing could take back a rollback that fails halfway.
  if undoes cmd then (done, { w with net := w.net.perform host cmd })
  else
    match w.fates with
    | [] => (done, { w with net := w.net.perform host cmd })
    | .done :: fates => (done, ⟨w.net.perform host cmd, fates⟩)
    | .refused rc err :: fates => (.ok ⟨(rc + 1 : ℕ), "", err⟩, { w with fates := fates })
    | .broken e :: fates => (.error e, { w with fates := fates })

/-- The hosts; a poll is repeated `patience` times. -/
def hosts (patience : ℕ) : Backend World where
  exec := answer
  cancelled w := (false, w)
  patience _ := patience
  now _ := ""

/-! ## Tasks -/

/-- What a program does next: it raises an exception, or runs a command, or waits until a command is
    no longer refused because the controller in a device is not up, for some turns. -/
inductive Task
  | fault
  | command (host : String) (cmd : Cmd) (check : Bool)
  | await (host : String) (cmd : Cmd) (turns : ℕ)

/-- The command of a task. -/
def Task.deed : Task → Option Deed
  | .fault => none
  | .command host cmd _ => some (host, cmd)
  | .await host cmd _ => some (host, cmd)

/-- The exception of a command that is checked. -/
def Fate.error (address : String) (cmd : Cmd) : Fate → Option Err
  | .done => none
  | .refused rc err => some (Remote.sshError address cmd ⟨(rc + 1 : ℕ), "", err⟩)
  | .broken e => some e

/-- How the commands after it end, when a command that is waited for succeeds. -/
def awaited (address : String) (cmd : Cmd) : ℕ → List Fate → Option (List Fate)
  | _, [] => some []
  | turns, fate :: fates =>
    match fate.error address cmd with
    | none => some fates
    | some e =>
      match turns with
      | 0 => none
      | turns + 1 => if controllerNotReady e then awaited address cmd turns fates else none

section Progress

variable (clients : Clients)

/-- The deeds of a task that does not fail, and how the commands after it end. -/
def Task.pass : Task → List Fate → Option (List Deed × List Fate)
  | .fault, _ => none
  | .command host cmd check, fates =>
    match clients.get? host, fates with
    | none, _ => none
    | some _, [] => some ([(host, cmd)], [])
    | some _, .done :: fates => some ([(host, cmd)], fates)
    | some _, .refused _ _ :: fates => if check then none else some ([], fates)
    | some _, .broken _ :: _ => none
  | .await host cmd turns, fates =>
    match clients.get? host with
    | none => none
    | some c => (awaited c.host cmd turns fates).map fun fates => ([(host, cmd)], fates)

/-- How far tasks come: how many do not fail, what they have done, and, if none fails, how the
    commands after them end. -/
structure Progress where
  passed : ℕ
  done : List Deed
  rest : Option (List Fate)

/-- How far tasks come when their commands end so. -/
def progress : List Task → List Fate → Progress
  | [], fates => ⟨0, [], some fates⟩
  | task :: tasks, fates =>
    match task.pass clients fates with
    | none => ⟨0, [], none⟩
    | some (deeds, fates) =>
      let p := progress tasks fates
      ⟨p.passed + 1, deeds ++ p.done, p.rest⟩

variable {clients}

/-- A task that fails is the last one. -/
theorem progress_append_of_none {tasks : List Task} {fates : List Fate}
    (h : (progress clients tasks fates).rest = none) (tasks' : List Task) :
    progress clients (tasks ++ tasks') fates = progress clients tasks fates := by
  induction tasks generalizing fates with
  | nil => cases h
  | cons task tasks ih =>
    rw [List.cons_append, progress, progress]
    cases hpass : task.pass clients fates with
    | none => rfl
    | some next =>
      rw [progress, hpass] at h
      dsimp only at h ⊢
      rw [ih h]

/-- Tasks that do not fail are followed by others. -/
theorem progress_append_of_some {tasks : List Task} {fates fates' : List Fate}
    (h : (progress clients tasks fates).rest = some fates') (tasks' : List Task) :
    progress clients (tasks ++ tasks') fates =
      ⟨(progress clients tasks fates).passed + (progress clients tasks' fates').passed,
        (progress clients tasks fates).done ++ (progress clients tasks' fates').done,
        (progress clients tasks' fates').rest⟩ := by
  induction tasks generalizing fates with
  | nil =>
    cases h
    rw [List.nil_append, progress]
    simp
  | cons task tasks ih =>
    rw [List.cons_append, progress, progress]
    rw [progress] at h
    cases hpass : task.pass clients fates with
    | none =>
      rw [hpass] at h
      cases h
    | some next =>
      rw [hpass] at h
      dsimp only at h ⊢
      rw [ih h, List.append_assoc, Nat.add_right_comm]

/-- Either all tasks are passed, or one of them fails. -/
theorem passed_progress (tasks : List Task) (fates : List Fate) :
    if (progress clients tasks fates).rest.isSome then
      (progress clients tasks fates).passed = tasks.length
    else (progress clients tasks fates).passed < tasks.length := by
  induction tasks generalizing fates with
  | nil => rfl
  | cons task tasks ih =>
    rw [progress]
    cases task.pass clients fates with
    | none => exact Nat.succ_pos _
    | some next =>
      have hnext := ih next.2
      dsimp only
      split_ifs at hnext ⊢
      · exact congrArg Nat.succ hnext
      · exact Nat.succ_lt_succ hnext

theorem deed_of_pass {task : Task} {fates rest : List Fate} {deeds : List Deed} {d : Deed}
    (h : task.pass clients fates = some (deeds, rest)) (hd : d ∈ deeds) : task.deed = some d := by
  rw [Task.pass.eq_def] at h
  split at h
  · cases h
  · split at h
    case _ => cases h
    case _ =>
      cases h
      rw [List.mem_singleton.1 hd]
      rfl
    case _ =>
      cases h
      rw [List.mem_singleton.1 hd]
      rfl
    case _ =>
      split_ifs at h
      cases h
      exact absurd hd List.not_mem_nil
    case _ => cases h
  · split at h
    · cases h
    · obtain ⟨_, -, heq⟩ := Option.map_eq_some_iff.1 h
      cases heq
      rw [List.mem_singleton.1 hd]
      rfl

/-- What is done are commands of the tasks. -/
theorem deed_of_done {tasks : List Task} {fates : List Fate} {d : Deed}
    (hd : d ∈ (progress clients tasks fates).done) : ∃ task ∈ tasks, task.deed = some d := by
  induction tasks generalizing fates with
  | nil => exact absurd hd List.not_mem_nil
  | cons task tasks ih =>
    rw [progress] at hd
    cases hpass : task.pass clients fates with
    | none =>
      rw [hpass] at hd
      exact absurd hd List.not_mem_nil
    | some next =>
      rw [hpass] at hd
      rcases List.mem_append.1 hd with hd | hd
      · exact ⟨task, List.mem_cons_self, deed_of_pass hpass hd⟩
      · obtain ⟨task', hmem, hdeed⟩ := ih hd
        exact ⟨task', List.mem_cons_of_mem task hmem, hdeed⟩

end Progress

/-! ## Programs that follow tasks -/

section Follows

variable {α β : Type} {clients : Clients} {patience : ℕ} {host : String} {cmd : Cmd} {check : Bool}
  {tasks tasks' : List Task}

/-- A program performs the tasks, and fails just as they do. -/
def Follows (clients : Clients) (tasks : List Task) (p : Prog (Remote World) Err α) : Prop :=
  ∀ n fates log, match p.run ⟨⟨n, fates⟩, log⟩ with
    | (.ok _, r) => ∃ fates', (progress clients tasks fates).rest = some fates' ∧
        r.env = ⟨n.after (progress clients tasks fates).done, fates'⟩
    | (.error _, r) => (progress clients tasks fates).rest = none ∧
        r.env.net = n.after (progress clients tasks fates).done

namespace Follows

theorem pure (a : α) : Follows clients [] (Pure.pure a : Prog (Remote World) Err α) :=
  fun _ fates _ => ⟨fates, rfl, rfl⟩

theorem raise (e : Err) : Follows clients [.fault] (.raise e : Prog (Remote World) Err α) :=
  fun _ _ _ => ⟨rfl, rfl⟩

theorem note (s : Side) : Follows clients [] (noteAttached s : Prog (Remote World) Err Unit) :=
  fun _ fates _ => ⟨fates, rfl, rfl⟩

theorem bind {p : Prog (Remote World) Err α} {f : α → Prog (Remote World) Err β}
    (hp : Follows clients tasks p) (hf : ∀ a, Follows clients tasks' (f a)) :
    Follows clients (tasks ++ tasks') (p >>= f) := by
  intro n fates log
  have hp := hp n fates log
  rw [Prog.run_bind]
  rcases hrun : p.run ⟨⟨n, fates⟩, log⟩ with ⟨e | a, r⟩ <;> rw [hrun] at hp
  · -- The first part fails, at one of its own tasks.
    dsimp only
    rw [progress_append_of_none hp.1]
    exact ⟨hp.1, hp.2⟩
  · -- The second part finds what the first one has done, and the commands that are left.
    obtain ⟨fates', hrest, henv⟩ := hp
    obtain ⟨env, log'⟩ := r
    dsimp only at henv
    subst henv
    rw [progress_append_of_some hrest, Net.after_append]
    exact hf a _ fates' log'

theorem ofExcept {x : Except Err α} {f : α → Prog (Remote World) Err β}
    (hok : ∀ a, x = .ok a → Follows clients tasks (f a))
    (herror : ∀ e, x = .error e → tasks = [.fault]) :
    Follows clients tasks (Prog.ofExcept x >>= f) := by
  cases x with
  | ok a => exact hok a rfl
  | error e =>
    rw [herror e rfl]
    exact fun _ _ _ => ⟨rfl, rfl⟩

/-- A command on a host with a client, by how it ends. -/
theorem run_command {c : InfraHost} (hc : clients.get? host = some c) (hundo : undoes cmd = false)
    (n : Net) (fates : List Fate) (log : List Event) : ∃ log',
    (clients.run (hosts patience) host cmd check).run ⟨⟨n, fates⟩, log⟩ =
      match fates with
      | [] => (.ok "", ⟨⟨n.perform host cmd, []⟩, log'⟩)
      | .done :: fates => (.ok "", ⟨⟨n.perform host cmd, fates⟩, log'⟩)
      | .refused rc err :: fates =>
        if check then
          (.error (Remote.sshError c.host cmd ⟨(rc + 1 : ℕ), "", err⟩), ⟨⟨n, fates⟩, log'⟩)
        else (.ok "", ⟨⟨n, fates⟩, log'⟩)
      | .broken e :: fates => (.error e, ⟨⟨n, fates⟩, log'⟩) := by
  refine ⟨.ran host cmd (Remote.succeeded (answer host cmd ⟨n, fates⟩).1) :: log, ?_⟩
  rw [Clients.run, hc]
  dsimp only
  have hrun : (Remote.runNoCheck (hosts patience) host cmd).run ⟨⟨n, fates⟩, log⟩ =
      ((answer host cmd ⟨n, fates⟩).1, ⟨(answer host cmd ⟨n, fates⟩).2,
        .ran host cmd (Remote.succeeded (answer host cmd ⟨n, fates⟩).1) :: log⟩) := rfl
  rw [Remote.run, Prog.run_bind, hrun, answer, hundo]
  rcases fates with _ | ⟨_ | ⟨rc, err⟩ | e, fates⟩
  · rfl
  · rfl
  · cases check with
    | true =>
      have hrc : ¬(rc : ℤ) + 1 = 0 := by omega
      simp [hrc]
    | false => simp
  · rfl

/-- A command performs its task. -/
theorem command (hundo : undoes cmd = false) :
    Follows clients [.command host cmd check] (clients.run (hosts patience) host cmd check) := by
  intro n fates log
  cases hc : clients.get? host with
  | none =>
    have hpass : (Task.command host cmd check).pass clients fates = none := by
      rw [Task.pass]
      exact hc
    rw [Clients.run, hc, progress, hpass]
    exact ⟨rfl, rfl⟩
  | some c =>
    obtain ⟨log', hrun⟩ := run_command hc hundo n fates log
    simp only [progress, Task.pass, hc]
    rw [hrun]
    rcases fates with _ | ⟨_ | ⟨rc, err⟩ | e, fates⟩
    · exact ⟨[], rfl, rfl⟩
    · exact ⟨fates, rfl, rfl⟩
    · -- An exit code is an exception only where it is checked.
      cases check with
      | true => exact ⟨rfl, rfl⟩
      | false => exact ⟨fates, rfl, rfl⟩
    · exact ⟨rfl, rfl⟩

/-- A command that is waited for, by how its turns end. -/
theorem run_whenReady (patience : ℕ) {c : InfraHost} (hc : clients.get? host = some c)
    (hundo : undoes cmd = false) (turns : ℕ) (n : Net) (fates : List Fate) (log : List Event) :
    match awaited c.host cmd turns fates with
    | some fates' => ∃ log', (runLinkctlWhenReady (hosts patience) clients host cmd turns).run
        ⟨⟨n, fates⟩, log⟩ = (.ok (), ⟨⟨n.perform host cmd, fates'⟩, log'⟩)
    | none => ∃ e fates' log', (runLinkctlWhenReady (hosts patience) clients host cmd turns).run
        ⟨⟨n, fates⟩, log⟩ = (.error e, ⟨⟨n, fates'⟩, log'⟩) := by
  -- One attempt, by its exception.
  have htry (n : Net) (fate : Fate) (fates : List Fate) (log : List Event) : ∃ log',
      (clients.run (hosts patience) host cmd true >>= fun _ => Pure.pure () :
          Prog (Remote World) Err Unit).run ⟨⟨n, fate :: fates⟩, log⟩ =
        match fate.error c.host cmd with
        | none => (.ok (), ⟨⟨n.perform host cmd, fates⟩, log'⟩)
        | some e => (.error e, ⟨⟨n, fates⟩, log'⟩) := by
    obtain ⟨log', hrun⟩ := run_command hc hundo n (fate :: fates) log
    refine ⟨log', ?_⟩
    rw [Prog.run_bind, hrun]
    cases fate <;> rfl
  have hlast (n : Net) (log : List Event) : ∃ log',
      (clients.run (hosts patience) host cmd true >>= fun _ => Pure.pure () :
          Prog (Remote World) Err Unit).run ⟨⟨n, []⟩, log⟩ =
        (.ok (), ⟨⟨n.perform host cmd, []⟩, log'⟩) := by
    obtain ⟨log', hrun⟩ := run_command hc hundo n [] log
    refine ⟨log', ?_⟩
    rw [Prog.run_bind, hrun]
    rfl
  induction turns generalizing fates log with
  | zero =>
    rw [runLinkctlWhenReady]
    cases fates with
    | nil => exact hlast n log
    | cons fate fates =>
      obtain ⟨log', hrun⟩ := htry n fate fates log
      rw [hrun, awaited]
      cases fate.error c.host cmd with
      | none => exact ⟨log', rfl⟩
      | some e => exact ⟨e, fates, log', rfl⟩
  | succ turns ih =>
    rw [runLinkctlWhenReady]
    cases fates with
    | nil =>
      obtain ⟨log', hrun⟩ := hlast n log
      refine ⟨log', ?_⟩
      rw [Prog.run_rescue, hrun]
    | cons fate fates =>
      obtain ⟨log', hrun⟩ := htry n fate fates log
      rw [Prog.run_rescue, hrun, awaited]
      cases fate.error c.host cmd with
      | none => exact ⟨log', rfl⟩
      | some e =>
        dsimp only
        split_ifs with hready
        · -- The controller is not up yet: one turn less.
          exact ih fates log'
        · exact ⟨e, fates, log', rfl⟩

theorem await {c : InfraHost} (hc : clients.get? host = some c) (hundo : undoes cmd = false)
    (turns : ℕ) : Follows clients [.await host cmd turns]
      (runLinkctlWhenReady (hosts patience) clients host cmd turns) := by
  intro n fates log
  have hrun := run_whenReady patience hc hundo turns n fates log
  rw [progress, Task.pass, hc]
  dsimp only
  cases hawaited : awaited c.host cmd turns fates with
  | none =>
    rw [hawaited] at hrun
    obtain ⟨e, fates', log', hrun⟩ := hrun
    rw [hrun]
    exact ⟨rfl, rfl⟩
  | some fates' =>
    rw [hawaited] at hrun
    obtain ⟨log', hrun⟩ := hrun
    rw [hrun]
    exact ⟨fates', rfl, rfl⟩

end Follows

/-- A program that has failed has performed the tasks up to the one that fails. If that is one of
    `inner`, it has then performed `undo`. -/
def Guarded (clients : Clients) (outer inner : List Task) (undo : List Deed)
    (p : Prog (Remote World) Err α) : Prop :=
  ∀ n fates log e r, p.run ⟨⟨n, fates⟩, log⟩ = (.error e, r) →
    r.env.net =
      if (progress clients (outer ++ inner) fates).passed < outer.length then
        n.after (progress clients (outer ++ inner) fates).done
      else (n.after (progress clients (outer ++ inner) fates).done).after undo

/-- A program performs some deeds, and raises an exception. -/
def TakesBack (undo : List Deed) (p : Prog (Remote World) Err α) : Prop :=
  ∀ n, Triple (fun r => r.env.net = n) p (fun _ _ => False) fun _ r => r.env.net = n.after undo

namespace Guarded

variable {outer inner : List Task} {undo : List Deed}

theorem raise (e : Err) :
    Guarded clients [.fault] inner undo (.raise e : Prog (Remote World) Err α) := by
  intro n fates log e' r h
  cases h
  rfl

theorem rescue {p : Prog (Remote World) Err α} {h : Err → Prog (Remote World) Err α}
    (hp : Follows clients inner p) (hh : ∀ e, TakesBack undo (h e)) :
    Guarded clients [] inner undo (p.rescue h) := by
  intro n fates log e r hrun
  rw [Prog.run_rescue] at hrun
  have hp := hp n fates log
  rcases hfirst : p.run ⟨⟨n, fates⟩, log⟩ with ⟨e' | a, s⟩ <;> rw [hfirst] at hp hrun
  · have hback := hh e' _ s hp.2
    dsimp only at hrun
    rw [hrun] at hback
    exact hback
  · cases hrun

/-- A part before the rest, which the rest comes to only when that part can end normally. -/
theorem bind {p : Prog (Remote World) Err α} {f : α → Prog (Remote World) Err β}
    (hp : Follows clients tasks p)
    (hf : ∀ a r r', p.run r = (.ok a, r') → Guarded clients outer inner undo (f a)) :
    Guarded clients (tasks ++ outer) inner undo (p >>= f) := by
  intro n fates log e r hrun
  have hp := hp n fates log
  have hpassed := @passed_progress clients tasks fates
  rw [List.append_assoc, List.length_append]
  rcases hfirst : p.run ⟨⟨n, fates⟩, log⟩ with ⟨e' | a, s⟩ <;> rw [hfirst] at hp
  · -- What fails before the handler is not taken back.
    rw [Prog.run_bind_error hfirst] at hrun
    cases hrun
    rw [hp.1, Option.isSome_none, if_neg Bool.false_ne_true] at hpassed
    rw [progress_append_of_none hp.1, if_pos (Nat.lt_add_right _ hpassed)]
    exact hp.2
  · rw [Prog.run_bind_ok hfirst] at hrun
    obtain ⟨fates', hrest, henv⟩ := hp
    obtain ⟨env, log'⟩ := s
    dsimp only at henv
    subst henv
    have hnet := hf a _ _ hfirst _ _ _ _ _ hrun
    rw [hrest, Option.isSome_some, if_pos rfl] at hpassed
    rw [progress_append_of_some hrest, Net.after_append, hpassed]
    simp only [Nat.add_lt_add_iff_left]
    exact hnet

end Guarded

end Follows

end Dnlab.RuntimeLinks
