import Dnlab.Services.RuntimeLinks

/-!
# What commands leave alone

An assertion about the hosts that no single command changes (`Untouched`) holds
after every program that only runs commands: those of the clients, and those
that create and delete links.
-/

namespace Dnlab

/-- No command changes that `I` holds, nor does what a run records. -/
structure Untouched {ρ : Type} (B : Backend ρ) (I : Remote ρ → Prop) : Prop where
  runNoCheck : ∀ host cmd, Prog.Keeps I (Remote.runNoCheck B host cmd)
  note : ∀ e, Prog.Keeps I (Remote.note e)

section Untouched

variable {ρ : Type} {B : Backend ρ} {I : Remote ρ → Prop} (h : Untouched B I) {clients : Clients}
  {host : String} {cmd : Cmd} {check : Bool}

namespace Untouched

theorem patience : Prog.Keeps I (Remote.patience B) := fun _ hr => hr

theorem now : Prog.Keeps I (Remote.now B) := fun _ hr => hr

include h

theorem remoteRun {address : String} : Prog.Keeps I (Remote.run B host address cmd check) :=
  .bind (h.runNoCheck host cmd) fun _ => .ite (fun _ => .raise _) fun _ => .pure _

theorem run : Prog.Keeps I (clients.run B host cmd check) := by
  rw [Clients.run]
  split
  · exact h.remoteRun
  · exact .raise _

theorem clientsRunNoCheck : Prog.Keeps I (clients.runNoCheck B host cmd) := by
  rw [Clients.runNoCheck]
  split
  · exact h.runNoCheck _ _
  · exact .raise _

theorem runIfPresent : Prog.Keeps I (clients.runIfPresent B host cmd) := by
  rw [Clients.runIfPresent]
  split
  · exact .bind h.remoteRun fun _ => .pure _
  · exact .pure _

end Untouched

namespace RuntimeLinks

variable {l : RuntimeLinkState} {up defer : Bool}

include h

theorem keeps_runLinkctlWhenReady {n : ℕ} :
    Prog.Keeps I (runLinkctlWhenReady B clients host cmd n) := by
  induction n with
  | zero => exact .bind h.run fun _ => .pure _
  | succ n ih =>
    exact .rescue (.bind h.run fun _ => .pure _) fun e => .ite (fun _ => ih) fun _ => .raise e

theorem keeps_setCarrier {s : Side} : Prog.Keeps I (setCarrier B clients up check defer s) := by
  refine .ite (fun _ => .pure _) fun _ => .ite (fun _ => .raise _) fun _ => .ite (fun _ => ?_)
    fun _ => .ite (fun _ => ?_) fun _ => .ite (fun _ => ?_) fun _ => ?_
  · exact .ite (fun _ => .raise _) fun _ => .pure _
  · exact .bind h.run fun _ => .pure _
  · exact .bind h.run fun _ => .pure _
  · exact .bind Untouched.patience fun _ => keeps_runLinkctlWhenReady h

theorem keeps_setLinkCarriers : Prog.Keeps I (setLinkCarriers B clients l up check defer) :=
  .bind (keeps_setCarrier h) fun _ => keeps_setCarrier h

theorem keeps_attachSide {bridge : String} {s : Side} :
    Prog.Keeps I (attachSide B clients host bridge s) :=
  .bind h.run fun _ => .bind h.run fun _ => h.note _

theorem keeps_createSameHost : Prog.Keeps I (createSameHost B clients l defer) := by
  refine .bind h.run fun _ => .bind h.run fun _ => .bind h.run fun _ => .rescue ?_ fun e => ?_
  · refine .bind (keeps_attachSide h) fun _ => .bind (keeps_attachSide h) fun _ => ?_
    exact keeps_setLinkCarriers h
  · refine .bind (keeps_setLinkCarriers h) fun _ => ?_
    exact .bind h.run fun _ => .bind h.run fun _ => .raise e

theorem keeps_deleteSameHost : Prog.Keeps I (deleteSameHost B clients l) :=
  .bind (keeps_setLinkCarriers h) fun _ => .bind h.runIfPresent fun _ => h.runIfPresent

theorem keeps_deleteCrossHostNetwork : Prog.Keeps I (deleteCrossHostNetwork B clients l) :=
  .bind h.runIfPresent fun _ => h.runIfPresent

theorem keeps_createTunnelEnd {underlayIps : Dict String String} {s : Side} {peer : String} :
    Prog.Keeps I (createTunnelEnd B clients underlayIps l s peer) :=
  .bind (.ofExcept _) fun _ => .bind h.run fun _ => h.note _

omit h in
theorem keeps_requireClient :
    Prog.Keeps I (requireClient clients host : Prog (Remote ρ) Err Unit) := by
  rw [requireClient]
  split
  · exact .pure _
  · exact .raise _

theorem keeps_createCrossHost {underlayIps : Dict String String} :
    Prog.Keeps I (createCrossHost B clients l underlayIps defer) := by
  refine .bind keeps_requireClient fun _ => .bind keeps_requireClient fun _ =>
    .rescue ?_ fun e => ?_
  · refine .bind (keeps_createTunnelEnd h) fun _ => .bind (keeps_createTunnelEnd h) fun _ => ?_
    exact keeps_setLinkCarriers h
  · refine .bind (keeps_setLinkCarriers h) fun _ => ?_
    exact .bind (keeps_deleteCrossHostNetwork h) fun _ => .raise e

theorem keeps_createRealNet : Prog.Keeps I (createRealNet B clients l defer) := by
  refine .bind h.run fun _ => .rescue ?_ fun e => ?_
  · exact .bind h.run fun _ => .bind (h.note _) fun _ => keeps_setLinkCarriers h
  · exact .bind (keeps_setLinkCarriers h) fun _ => .bind h.run fun _ => .raise e

theorem keeps_createByType {underlayIps : Dict String String} :
    Prog.Keeps I (createByType B clients l underlayIps defer) := by
  rw [createByType]
  split
  · exact keeps_createSameHost h
  · exact keeps_createCrossHost h
  · exact keeps_createRealNet h
  · exact .raise _

theorem keeps_deleteByType : Prog.Keeps I (deleteByType B clients l) := by
  rw [deleteByType]
  split
  · exact keeps_deleteSameHost h
  · exact .bind (keeps_setLinkCarriers h) fun _ => keeps_deleteCrossHostNetwork h
  · exact .bind (keeps_setLinkCarriers h) fun _ => h.runIfPresent
  · exact .pure _

theorem keeps_createLink {underlayIps : Dict String String} {runningNodes : List String} :
    Prog.Keeps I (createLink B clients underlayIps runningNodes defer l) := by
  refine .ite (fun _ => .pure _) fun _ => .bind (keeps_createByType h).attempt fun r => ?_
  split
  · exact .bind (h.note _) fun _ => .pure _
  · exact .pure _

theorem keeps_deleteLink : Prog.Keeps I (deleteLink B clients l) := by
  refine .bind (h.note _) fun _ => .bind (keeps_deleteByType h).attempt fun r => ?_
  split
  · exact .pure _
  · exact .pure _

omit h in
theorem keeps_visitLinks {p : RuntimeLinkState → Bool}
    {step : RuntimeLinkState → Prog (Remote ρ) Err (RuntimeLinkState × Option Err)}
    (hstep : ∀ l, Prog.Keeps I (step l)) {links : List RuntimeLinkState} :
    Prog.Keeps I (visitLinks p step links) := by
  induction links with
  | nil => exact .pure _
  | cons l rest ih =>
    refine .ite (fun _ => .bind (hstep l) fun r => ?_) fun _ => .bind ih fun _ => .pure _
    dsimp only
    split
    · exact .pure _
    · exact .bind ih fun _ => .pure _

theorem keeps_deleteNodeLinks {node : String} {links : List RuntimeLinkState} :
    Prog.Keeps I (deleteNodeLinks B clients node links) :=
  keeps_visitLinks fun _ => keeps_deleteLink h

theorem keeps_reconcileNodeLinks {node : String} {links : List RuntimeLinkState}
    {underlayIps : Dict String String} {runningNodes : List String} :
    Prog.Keeps I (reconcileNodeLinks B clients node links underlayIps runningNodes) :=
  keeps_visitLinks fun _ => keeps_createLink h

end RuntimeLinks

end Untouched

end Dnlab
