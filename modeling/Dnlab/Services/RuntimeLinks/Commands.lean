import Dnlab.Services.Remote.Log
import Dnlab.Services.RuntimeLinks

/-!
# What a link touches

Creating or deleting a link runs commands on the hosts of the link only, and the
interfaces and bridges that these name are those of the link there (`touches`).
-/

namespace Dnlab.RuntimeLinks

/-- The interfaces and bridges that a command names. -/
def ifacesOf : Cmd → List String
  | .bridgeAdd b => [b]
  | .linkUp i => [i]
  | .linkMaster i b => [i, b]
  | .linkNoMaster i => [i]
  | .linkDelete i => [i]
  | .linkShow i => [i]
  | .vxlanCreate i _ _ => [i, vxlanAltname i]
  | .forwardingAllow b => [b]
  | .forwardingRemove b => [b]
  | _ => []

/-- The bridges of a link on a host. -/
def bridgesOn (w : String) (l : RuntimeLinkState) : List String :=
  if l.hostA = w then
    match l.linkType with
    | .sameHost => [runtimeBridgeName l]
    | .realNet => [l.hostEndpointB]
    | _ => []
  else []

/-- The interfaces and bridges of a link on a host. -/
def touches (w : String) (l : RuntimeLinkState) : List String :=
  bridgesOn w l ++
    ([sideA l, sideB l].filter (·.host = w)).flatMap fun s =>
      [s.hostEndpoint, vxlanAltname s.hostEndpoint]

/-- An event is about a link: a command runs on one of its hosts and names what is of the link
    there. -/
def About (l : RuntimeLinkState) : Event → Prop
  | .ran w cmd _ => (w = l.hostA ∨ w = l.hostB) ∧ ∀ n ∈ ifacesOf cmd, n ∈ touches w l
  | .attached w iface _ _ => (w = l.hostA ∨ w = l.hostB) ∧ iface ∈ touches w l
  | .created l' => l' = l
  | .deleting l' => l' = l

section Commands

variable {ρ : Type} {B : Backend ρ} {clients : Clients} {l : RuntimeLinkState}

theorem mem_touches_side {s : Side} (hs : s = sideA l ∨ s = sideB l) :
    s.hostEndpoint ∈ touches s.host l ∧ vxlanAltname s.hostEndpoint ∈ touches s.host l := by
  have hmem : s ∈ [sideA l, sideB l].filter (·.host = s.host) :=
    List.mem_filter.2 ⟨by rcases hs with rfl | rfl <;> simp, by simp⟩
  constructor <;>
    exact List.mem_append_right _ (List.mem_flatMap.2 ⟨s, hmem, by simp⟩)

theorem mem_touches_runtimeBridge (ht : l.linkType = .sameHost) :
    runtimeBridgeName l ∈ touches l.hostA l := by
  simp [touches, bridgesOn, ht]

theorem mem_touches_netBridge (ht : l.linkType = .realNet) :
    l.hostEndpointB ∈ touches l.hostA l := by
  simp [touches, bridgesOn, ht]

theorem about_side {s : Side} (hs : s = sideA l ∨ s = sideB l) : s.host = l.hostA ∨ s.host = l.hostB := by
  rcases hs with rfl | rfl
  · exact .inl rfl
  · exact .inr rfl

theorem adds_runLinkctlWhenReady {s : Side} (hs : s = sideA l ∨ s = sideB l) {cmd : Cmd}
    (hc : ifacesOf cmd = []) (n : ℕ) :
    Adds (About l) (runLinkctlWhenReady B clients s.host cmd n) := by
  have hrun : Adds (About l) (clients.run B s.host cmd true) :=
    .run fun ok => ⟨about_side hs, by simp [hc]⟩
  induction n with
  | zero => exact .bind hrun fun _ => .pure _
  | succ n ih =>
    exact .rescue (.bind hrun fun _ => .pure _) fun e => .ite (fun _ => ih) fun _ => .raise e

theorem adds_setCarrier {s : Side} (hs : s = sideA l ∨ s = sideB l) (up check defer : Bool) :
    Adds (About l) (setCarrier B clients up check defer s) := by
  have hrun : ∀ cmd check', ifacesOf cmd = [] →
      Adds (About l) (clients.run B s.host cmd check') := fun cmd check' hc =>
    .run fun ok => ⟨about_side hs, by simp [hc]⟩
  unfold setCarrier
  refine .ite (fun _ => .pure _) fun _ => .ite (fun _ => .raise _) fun _ => .ite (fun _ => ?_)
    fun _ => .ite (fun _ => ?_) fun _ => .ite (fun _ => ?_) fun _ => ?_
  · exact .ite (fun _ => .raise _) fun _ => .pure _
  · exact .bind (hrun _ _ rfl) fun _ => .pure _
  · exact .bind (hrun _ _ rfl) fun _ => .pure _
  · exact .bind .patience fun n => adds_runLinkctlWhenReady hs rfl n

theorem adds_setLinkCarriers (up check defer : Bool) :
    Adds (About l) (setLinkCarriers B clients l up check defer) :=
  .bind (adds_setCarrier (.inl rfl) up check defer) fun _ =>
    adds_setCarrier (.inr rfl) up check defer

section Bridge

variable (ht : l.linkType = .sameHost)

include ht

theorem adds_bridgeRun {cmd : Cmd} (hc : ∀ n ∈ ifacesOf cmd, n = runtimeBridgeName l)
    (check : Bool) : Adds (About l) (clients.run B l.hostA cmd check) :=
  .run fun _ => ⟨.inl rfl, fun n hn => hc n hn ▸ mem_touches_runtimeBridge ht⟩

theorem adds_bridgeRunIfPresent {cmd : Cmd} (hc : ∀ n ∈ ifacesOf cmd, n = runtimeBridgeName l) :
    Adds (About l) (clients.runIfPresent B l.hostA cmd) :=
  .runIfPresent fun _ => ⟨.inl rfl, fun n hn => hc n hn ▸ mem_touches_runtimeBridge ht⟩

theorem adds_attachSide {s : Side} (hs : s = sideA l ∨ s = sideB l) (hh : s.host = l.hostA) :
    Adds (About l) (attachSide B clients l.hostA (runtimeBridgeName l) s) := by
  have hend : s.hostEndpoint ∈ touches l.hostA l := hh ▸ (mem_touches_side hs).1
  refine .bind (.run fun ok => ⟨.inl rfl, ?_⟩) fun _ => .bind (.run fun ok => ⟨.inl rfl, ?_⟩)
    fun _ => .note ⟨about_side hs, (mem_touches_side hs).1⟩
  · simpa [ifacesOf] using hend
  · simpa [ifacesOf] using ⟨hend, mem_touches_runtimeBridge ht⟩

theorem adds_createSameHost (hh : l.hostB = l.hostA) (defer : Bool) :
    Adds (About l) (createSameHost B clients l defer) := by
  refine .bind (adds_bridgeRun ht (by simp [ifacesOf]) _) fun _ =>
    .bind (adds_bridgeRun ht (by simp [ifacesOf]) _) fun _ =>
    .bind (adds_bridgeRun ht (by simp [ifacesOf]) _) fun _ => .rescue ?_ fun e => ?_
  · exact .bind (adds_attachSide ht (.inl rfl) rfl) fun _ =>
      .bind (adds_attachSide ht (.inr rfl) hh) fun _ => adds_setLinkCarriers _ _ _
  · exact .bind (adds_setLinkCarriers _ _ _) fun _ =>
      .bind (adds_bridgeRun ht (by simp [ifacesOf]) _) fun _ =>
      .bind (adds_bridgeRun ht (by simp [ifacesOf]) _) fun _ => .raise e

theorem adds_deleteSameHost : Adds (About l) (deleteSameHost B clients l) :=
  .bind (adds_setLinkCarriers _ _ _) fun _ =>
    .bind (adds_bridgeRunIfPresent ht (by simp [ifacesOf])) fun _ =>
    adds_bridgeRunIfPresent ht (by simp [ifacesOf])

end Bridge

theorem adds_deleteCrossHostNetwork : Adds (About l) (deleteCrossHostNetwork B clients l) :=
  .bind (.runIfPresent fun _ => ⟨.inl rfl, by
      simpa [ifacesOf, sideA] using (mem_touches_side (l := l) (.inl rfl)).2⟩) fun _ =>
    .runIfPresent fun _ => ⟨.inr rfl, by
      simpa [ifacesOf, sideB] using (mem_touches_side (l := l) (.inr rfl)).2⟩

theorem adds_createTunnelEnd {s : Side} (hs : s = sideA l ∨ s = sideB l)
    (underlayIps : Dict String String) (peer : String) :
    Adds (About l) (createTunnelEnd B clients underlayIps l s peer) := by
  refine .bind (.ofExcept _) fun remote => .bind (.run fun _ => ⟨about_side hs, ?_⟩) fun _ =>
    .note ⟨about_side hs, (mem_touches_side hs).1⟩
  simpa [ifacesOf] using mem_touches_side hs

theorem adds_createCrossHost (underlayIps : Dict String String) (defer : Bool) :
    Adds (About l) (createCrossHost B clients l underlayIps defer) := by
  have hclient : ∀ host, Adds (About l) (requireClient clients host : Prog (Remote ρ) Err Unit) := by
    intro host
    unfold requireClient
    split
    · exact .pure _
    · exact .raise _
  refine .bind (hclient _) fun _ => .bind (hclient _) fun _ => .rescue ?_ fun e => ?_
  · exact .bind (adds_createTunnelEnd (.inl rfl) _ _) fun _ =>
      .bind (adds_createTunnelEnd (.inr rfl) _ _) fun _ => adds_setLinkCarriers _ _ _
  · exact .bind (adds_setLinkCarriers _ _ _) fun _ =>
      .bind adds_deleteCrossHostNetwork fun _ => .raise e

theorem adds_createRealNet (ht : l.linkType = .realNet) (defer : Bool) :
    Adds (About l) (createRealNet B clients l defer) := by
  have hend : l.hostEndpointA ∈ touches l.hostA l := (mem_touches_side (.inl rfl)).1
  have hbridge : l.hostEndpointB ∈ touches l.hostA l := mem_touches_netBridge ht
  refine .bind (.run fun _ => ⟨.inl rfl, ?_⟩) fun _ => .rescue ?_ fun e => ?_
  · simpa [ifacesOf] using hend
  · refine .bind (.run fun _ => ⟨.inl rfl, ?_⟩) fun _ =>
      .bind (.note ⟨.inl rfl, hend⟩) fun _ => adds_setLinkCarriers _ _ _
    simpa [ifacesOf] using ⟨hend, hbridge⟩
  · exact .bind (adds_setLinkCarriers _ _ _) fun _ =>
      .bind (.run fun _ => ⟨.inl rfl, by simpa [ifacesOf] using hend⟩) fun _ => .raise e

theorem adds_deleteRealNet : Adds (About l) (deleteRealNet B clients l) :=
  .bind (adds_setLinkCarriers _ _ _) fun _ => .runIfPresent fun _ => ⟨.inl rfl, by
    simpa [ifacesOf, sideA] using (mem_touches_side (l := l) (.inl rfl)).1⟩

theorem adds_createByType (hh : l.linkType = .sameHost → l.hostB = l.hostA)
    (underlayIps : Dict String String) (defer : Bool) :
    Adds (About l) (createByType B clients l underlayIps defer) := by
  unfold createByType
  split
  · exact adds_createSameHost ‹_› (hh ‹_›) defer
  · exact adds_createCrossHost underlayIps defer
  · exact adds_createRealNet ‹_› defer
  · exact .raise _

theorem adds_deleteByType : Adds (About l) (deleteByType B clients l) := by
  unfold deleteByType
  split
  · exact adds_deleteSameHost ‹_›
  · exact .bind (adds_setLinkCarriers _ _ _) fun _ => adds_deleteCrossHostNetwork
  · exact adds_deleteRealNet
  · exact .pure _

/-- Creating a link touches nothing but what is of the link. -/
theorem createLink_about (hh : l.linkType = .sameHost → l.hostB = l.hostA)
    (underlayIps : Dict String String) (runningNodes : List String) (defer : Bool) :
    Adds (About l) (createLink B clients underlayIps runningNodes defer l) := by
  unfold createLink
  refine .ite (fun _ => .pure _) fun _ =>
    .bind (.attempt (adds_createByType hh underlayIps defer)) fun x => ?_
  rcases x with e | _
  · exact .pure _
  · exact .bind (.note rfl) fun _ => .pure _

/-- Deleting a link touches nothing but what is of the link. -/
theorem deleteLink_about : Adds (About l) (deleteLink B clients l) := by
  refine .bind (.note rfl) fun _ => .bind (.attempt adds_deleteByType) fun x => ?_
  rcases x with e | _ <;> exact .pure _

end Commands

end Dnlab.RuntimeLinks
