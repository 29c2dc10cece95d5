import Dnlab.Services.Realnet
import Dnlab.Utils.Naming.Parts

/-!
# What the commands for real networks leave

A command changes the interface that it is for, and lets go what that held. A
tunnel is accepted unless its host has one of another name with its number
(`succeeds_replaceVxlan_iff`). In a list of commands that are accepted, each
tunnel stands at the end unless a later one was for an interface of the same
name on the same host, and it is attached to its bridge unless something else
has the name of the bridge (`tunnel_of_sublist`).
-/

namespace Dnlab.Realnet

open Naming (kind)

/-! ## One command -/

/-- The interface that a command replaces, with its host. -/
def Act.target : Act → Option (String × String)
  | (host, .replaceVxlan i _ _) => some (host, i)
  | _ => none

/-- Bridges are called `br…`, and tunnels `vx…`. -/
def Act.WellNamed : Act → Prop
  | (_, .ensureBridge b) => kind b = ['b', 'r']
  | (_, .allowForwarding _) => True
  | (_, .replaceVxlan i _ b) => kind i = ['v', 'x'] ∧ kind b = ['b', 'r']

/-- A tunnel that is up and attached to a bridge. -/
def tunnelOn (t : Tunnel) (bridge : String) : Iface := ⟨.vxlan t, some bridge, true⟩

/-- What the interface of that name is, if there is one. -/
def kindAt (links : Ifaces) (n : String) : Option IfaceKind := (links.get? n).map (·.kind)

/-- The interface of that name is a tunnel with this number at the port of the real networks. -/
def Holds (links : Ifaces) (n : String) (vni : ℕ) : Prop :=
  (kindAt links n).any (·.numbered vni tunnelPort) = true

theorem ne_of_kind {i b : String} (hi : kind i = ['v', 'x']) (hb : kind b = ['b', 'r']) : i ≠ b := by
  rintro rfl
  rw [hi] at hb
  exact absurd hb (by decide)

section Effect

variable {links : Ifaces} {i n b host : String} {t : Tunnel} {a : Act} {net : Net}

theorem get?_deleteLink (h : n ≠ i) : (deleteLink i links).get? n =
    (links.get? n).map fun l => if l.master = some i then { l with master := none } else l := by
  rw [deleteLink, Dict.get?_map, Dict.get?_erase_of_ne _ h]

/-- What is left of other interfaces when one is deleted: those that it held are let go. -/
theorem get?_clear_of_ne (h : n ≠ i) : (clear i links).get? n =
    if links.contains i then
      (links.get? n).map fun l => if l.master = some i then { l with master := none } else l
    else links.get? n := by
  rw [clear]
  split
  · rw [get?_deleteLink h]
  · rfl

theorem kindAt_clear_of_ne (h : n ≠ i) : kindAt (clear i links) n = kindAt links n := by
  rw [kindAt, kindAt, get?_clear_of_ne h]
  split
  · rw [Option.map_map]
    refine congrArg (Option.map · _) (funext fun l => ?_)
    simp only [Function.comp_apply]
    split <;> rfl
  · rfl

theorem kindAt_clear_self : kindAt (clear i links) i = none := by
  rw [kindAt, clear]
  split
  · rw [deleteLink, Dict.get?_map, Dict.get?_erase_self]
    rfl
  · rename_i h
    rw [Dict.contains_iff, ← Dict.get?_eq_none_iff] at h
    rw [h]
    rfl

theorem kindAt_linkUp : kindAt (linkUp i links) n = kindAt links n := by
  rw [kindAt, kindAt, linkUp, Dict.get?_modify]
  split
  · rw [Option.map_map]
    rfl
  · rfl

theorem kindAt_enslave : kindAt (enslave i b links) n = kindAt links n := by
  rw [enslave]
  split
  · rw [kindAt, kindAt, Dict.get?_modify]
    split
    · rw [Option.map_map]
      rfl
    · rfl
  · rfl

theorem isBridge_iff : isBridge b links = true ↔ kindAt links b = some .bridge := by
  rw [isBridge, kindAt]
  cases links.get? b with
  | none => simp
  | some l => simp

theorem taken_iff (ht : t.port = tunnelPort) :
    taken t links = true ↔ ∃ n, Holds links n t.vni := by
  rw [taken, List.any_eq_true]
  simp only [Dict.mem_values_iff, Holds, kindAt, Option.any_map, Option.any_eq_true, ht]
  constructor
  · rintro ⟨l, ⟨n, hn⟩, hl⟩
    exact ⟨n, l, hn, hl⟩
  · rintro ⟨n, l, hn, hl⟩
    exact ⟨l, ⟨n, hn⟩, hl⟩

/-- A tunnel is accepted unless there is another one with its number. -/
theorem succeeds_replaceVxlan_iff (ht : t.port = tunnelPort) :
    (RealnetCmd.replaceVxlan i t b).succeeds links = true ↔
      ∀ n, Holds links n t.vni → n = i := by
  rw [RealnetCmd.succeeds, Bool.not_eq_true', ← Bool.not_eq_true, taken_iff ht, not_exists]
  refine forall_congr' fun n => ?_
  by_cases hn : n = i
  · subst hn
    rw [Holds, kindAt_clear_self]
    simp
  · rw [Holds, kindAt_clear_of_ne hn, Holds]
    simp [hn]

/-- A command changes no interface into another kind but the one that it replaces. -/
theorem kindAt_effect {cmd : RealnetCmd} (h : Act.target (host, cmd) ≠ some (host, n))
    (hsome : kindAt links n ≠ none) :
    kindAt (RealnetCmd.effect cmd links) n = kindAt links n := by
  cases cmd with
  | ensureBridge b' =>
    rw [RealnetCmd.effect, kindAt_linkUp]
    split
    · rfl
    · rename_i hno
      have hne : n ≠ b' := by
        rintro rfl
        rw [Dict.contains_iff, ← Dict.get?_eq_none_iff] at hno
        rw [kindAt, hno] at hsome
        exact hsome rfl
      rw [kindAt, Dict.get?_set_of_ne _ _ hne, kindAt]
  | allowForwarding b' => rfl
  | replaceVxlan i' t' b' =>
    have hne : n ≠ i' := fun heq => h (congrArg (fun i => some (host, i)) heq.symm)
    rw [RealnetCmd.effect]
    -- The old device is deleted even when the new one is refused.
    split
    · exact kindAt_clear_of_ne hne
    · rw [kindAt_linkUp, kindAt_enslave, kindAt, Dict.get?_set_of_ne _ _ hne, ← kindAt,
        kindAt_clear_of_ne hne]

/-- The only interface that another command may add is a bridge. -/
theorem kindAt_effect_of_none {cmd : RealnetCmd} (h : Act.target (host, cmd) ≠ some (host, n))
    (hnone : kindAt links n = none) : kindAt (RealnetCmd.effect cmd links) n = none ∨
      kindAt (RealnetCmd.effect cmd links) n = some .bridge := by
  cases cmd with
  | ensureBridge b' =>
    rw [RealnetCmd.effect, kindAt_linkUp]
    split
    · exact .inl hnone
    · rw [kindAt, Dict.get?_set]
      split
      · exact .inr rfl
      · exact .inl hnone
  | allowForwarding b' => exact .inl hnone
  | replaceVxlan i' t' b' =>
    have hne : n ≠ i' := fun heq => h (congrArg (fun i => some (host, i)) heq.symm)
    rw [RealnetCmd.effect]
    split
    · exact .inl ((kindAt_clear_of_ne hne).trans hnone)
    · rw [kindAt_linkUp, kindAt_enslave, kindAt, Dict.get?_set_of_ne _ _ hne, ← kindAt,
        kindAt_clear_of_ne hne]
      exact .inl hnone

/-- No other command makes an interface a tunnel. -/
theorem holds_effect {cmd : RealnetCmd} {vni : ℕ} (h : Act.target (host, cmd) ≠ some (host, n)) :
    Holds (RealnetCmd.effect cmd links) n vni ↔ Holds links n vni := by
  by_cases hnone : kindAt links n = none
  · rw [Holds, Holds, hnone]
    rcases kindAt_effect_of_none h hnone with hkind | hkind
    · rw [hkind]
    · rw [hkind]
      exact iff_of_false nofun nofun
  · rw [Holds, Holds, kindAt_effect h hnone]

/-- A tunnel that was accepted is up, and attached to its bridge if there is one. -/
theorem get?_replaceVxlan_self (h : b ≠ i)
    (hacc : (RealnetCmd.replaceVxlan i t b).succeeds links = true) :
    ((RealnetCmd.replaceVxlan i t b).effect links).get? i =
      some ⟨.vxlan t, if isBridge b links then some b else none, true⟩ := by
  have hfree : ¬taken t (clear i links) = true := by
    rwa [RealnetCmd.succeeds, Bool.not_eq_true', ← Bool.not_eq_true] at hacc
  have hbridge : isBridge b ((clear i links).set i { kind := .vxlan t }) = isBridge b links := by
    rw [Bool.eq_iff_iff, isBridge_iff, isBridge_iff, kindAt, Dict.get?_set_of_ne _ _ h, ← kindAt,
      kindAt_clear_of_ne h]
  rw [RealnetCmd.effect, if_neg hfree, linkUp, Dict.get?_modify, if_pos rfl, enslave, hbridge]
  split
  · rw [Dict.get?_modify, if_pos rfl, Dict.get?_set_self]
    rfl
  · rw [Dict.get?_set_self]
    rfl

theorem apply_host (net : Net) (a : Act) : a.apply net a.1 = a.2.effect (net a.1) := by
  rw [Act.apply, Function.update_self]

theorem apply_of_ne (h : host ≠ a.1) : a.apply net host = net host := by
  rw [Act.apply, Function.update_of_ne h]

theorem kindAt_apply (h : a.target ≠ some (host, n)) (hsome : kindAt (net host) n ≠ none) :
    kindAt (a.apply net host) n = kindAt (net host) n := by
  obtain ⟨host', cmd⟩ := a
  rcases eq_or_ne host host' with rfl | hne
  · rw [apply_host]
    exact kindAt_effect h hsome
  · rw [apply_of_ne hne]

theorem holds_apply {vni : ℕ} (h : a.target ≠ some (host, n)) :
    Holds (a.apply net host) n vni ↔ Holds (net host) n vni := by
  obtain ⟨host', cmd⟩ := a
  rcases eq_or_ne host host' with rfl | hne
  · rw [apply_host]
    exact holds_effect h
  · rw [apply_of_ne hne]

theorem kindAt_apply_ensureBridge (hnone : kindAt (net host) b = none) :
    kindAt (Act.apply net (host, .ensureBridge b) host) b = some .bridge := by
  have hno : ¬(net host).contains b = true := by
    rw [Dict.contains_iff, ← Dict.get?_eq_none_iff]
    exact Option.map_eq_none_iff.1 hnone
  rw [apply_host, RealnetCmd.effect, kindAt_linkUp, if_neg hno, kindAt, Dict.get?_set_self]
  rfl

theorem kindAt_apply_replaceVxlan
    (hacc : (RealnetCmd.replaceVxlan i t b).succeeds (net host) = true) :
    kindAt (Act.apply net (host, .replaceVxlan i t b) host) i = some (.vxlan t) := by
  rw [RealnetCmd.succeeds, Bool.not_eq_true', ← Bool.not_eq_true] at hacc
  rw [apply_host, RealnetCmd.effect, if_neg hacc, kindAt_linkUp, kindAt_enslave, kindAt,
    Dict.get?_set_self]
  rfl

/-- A tunnel stays as it is under a command for another interface. -/
theorem tunnel_apply {l : Iface} (ha : a.WellNamed) (hn : kind n = ['v', 'x'])
    (hl : ∀ i, kind i = ['v', 'x'] → l.master ≠ some i) (htarget : a.target ≠ some (host, n))
    (h : (net host).get? n = some l) : (a.apply net host).get? n = some l := by
  obtain ⟨host', cmd⟩ := a
  rcases eq_or_ne host host' with rfl | hne
  · rw [apply_host]
    rcases cmd with b' | b' | ⟨i, t', b'⟩
    · have hne := ne_of_kind hn ha
      rw [RealnetCmd.effect, linkUp, Dict.get?_modify, if_neg hne]
      split
      · exact h
      · rwa [Dict.get?_set_of_ne _ _ hne]
    · exact h
    · have hne : n ≠ i := fun heq => htarget (congrArg (fun i => some (host, i)) heq.symm)
      have hclear : (clear i (net host)).get? n = some l := by
        rw [get?_clear_of_ne hne, h]
        split
        · rw [Option.map_some, if_neg (hl i ha.1)]
        · rfl
      rw [RealnetCmd.effect]
      split
      · exact hclear
      · rw [linkUp, Dict.get?_modify, if_neg hne, enslave]
        split
        · rw [Dict.get?_modify, if_neg hne, Dict.get?_set_of_ne _ _ hne, hclear]
        · rw [Dict.get?_set_of_ne _ _ hne, hclear]
  · rwa [apply_of_ne hne]

end Effect

/-! ## A list of commands -/

/-- The hosts accept these commands, one after the other. -/
def AllAccepted : List Act → Net → Prop
  | [], _ => True
  | a :: acts, net => a.2.succeeds (net a.1) = true ∧ AllAccepted acts (a.apply net)

section Acts

variable {acts acts' : List Act} {net : Net} {host b n : String} {t : Tunnel}

theorem allAccepted_append :
    AllAccepted (acts ++ acts') net ↔
      AllAccepted acts net ∧ AllAccepted acts' (acts.foldl Act.apply net) := by
  induction acts generalizing net with
  | nil => exact ⟨fun h => ⟨trivial, h⟩, And.right⟩
  | cons a acts ih =>
    rw [List.cons_append, AllAccepted, AllAccepted, ih, and_assoc]
    rfl

/-- The commands of a list are accepted if those of each element are, after those before it. -/
theorem allAccepted_flatMap {α : Type} {f : α → List Act} {l : List α} :
    AllAccepted (l.flatMap f) net ↔ ∀ l₁ a l₂, l = l₁ ++ a :: l₂ →
      AllAccepted (f a) ((l₁.flatMap f).foldl Act.apply net) := by
  induction l generalizing net with
  | nil => exact iff_of_true trivial fun l₁ a l₂ h => by simp at h
  | cons b l ih =>
    rw [List.flatMap_cons, allAccepted_append, ih]
    constructor
    · rintro ⟨hb, hl⟩ l₁ a l₂ h
      rcases l₁ with _ | ⟨b', l₁⟩
      · obtain ⟨rfl, -⟩ := List.cons.inj h
        exact hb
      · obtain ⟨rfl, heq⟩ := List.cons.inj h
        rw [List.flatMap_cons, List.foldl_append]
        exact hl l₁ a l₂ heq
    · intro h
      refine ⟨h [] b l rfl, fun l₁ a l₂ heq => ?_⟩
      have hrest := h (b :: l₁) a l₂ (congrArg _ heq)
      rwa [List.flatMap_cons, List.foldl_append] at hrest

theorem kindAt_foldl (h : (host, n) ∉ acts.filterMap Act.target)
    (hsome : kindAt (net host) n ≠ none) :
    kindAt (acts.foldl Act.apply net host) n = kindAt (net host) n := by
  induction acts generalizing net with
  | nil => rfl
  | cons a acts ih =>
    have ha : a.target ≠ some (host, n) := fun heq =>
      h (List.mem_filterMap.2 ⟨a, List.mem_cons_self, heq⟩)
    have hrest : (host, n) ∉ acts.filterMap Act.target := fun hmem => by
      obtain ⟨a', ha', heq⟩ := List.mem_filterMap.1 hmem
      exact h (List.mem_filterMap.2 ⟨a', List.mem_cons_of_mem _ ha', heq⟩)
    have hkept := kindAt_apply ha hsome
    rw [List.foldl_cons, ih hrest (hkept ▸ hsome), hkept]

theorem holds_foldl {vni : ℕ} (h : (host, n) ∉ acts.filterMap Act.target) :
    Holds (acts.foldl Act.apply net host) n vni ↔ Holds (net host) n vni := by
  induction acts generalizing net with
  | nil => rfl
  | cons a acts ih =>
    have ha : a.target ≠ some (host, n) := fun heq =>
      h (List.mem_filterMap.2 ⟨a, List.mem_cons_self, heq⟩)
    have hrest : (host, n) ∉ acts.filterMap Act.target := fun hmem => by
      obtain ⟨a', ha', heq⟩ := List.mem_filterMap.1 hmem
      exact h (List.mem_filterMap.2 ⟨a', List.mem_cons_of_mem _ ha', heq⟩)
    rw [List.foldl_cons, ih hrest, holds_apply ha]

/-- What a command has replaced is a tunnel of the list. -/
theorem kindAt_of_mem_targets (hacc : AllAccepted acts net)
    (h : (host, n) ∈ acts.filterMap Act.target) :
    ∃ t b, (host, .replaceVxlan n t b) ∈ acts ∧
      kindAt (acts.foldl Act.apply net host) n = some (.vxlan t) := by
  induction acts generalizing net with
  | nil => exact absurd h List.not_mem_nil
  | cons a acts ih =>
    -- The last command for the interface makes it what it is.
    by_cases hlater : (host, n) ∈ acts.filterMap Act.target
    · obtain ⟨t, b, hmem, hkind⟩ := ih hacc.2 hlater
      exact ⟨t, b, List.mem_cons_of_mem _ hmem, hkind⟩
    · have ha : a.target = some (host, n) := by
        obtain ⟨a', ha', heq⟩ := List.mem_filterMap.1 h
        rcases List.mem_cons.1 ha' with rfl | ha'
        · exact heq
        · exact absurd (List.mem_filterMap.2 ⟨a', ha', heq⟩) hlater
      obtain ⟨host', cmd⟩ := a
      cases cmd with
      | replaceVxlan i t b =>
        obtain ⟨rfl, rfl⟩ := Prod.mk.inj (Option.some.inj ha)
        have hmade := kindAt_apply_replaceVxlan hacc.1
        refine ⟨t, b, List.mem_cons_self, ?_⟩
        rw [List.foldl_cons, kindAt_foldl hlater (by simp [hmade]), hmade]
      | _ => cases ha

theorem bridge_notMem_targets (hacts : ∀ a ∈ acts, a.WellNamed) (hb : kind b = ['b', 'r']) :
    (host, b) ∉ acts.filterMap Act.target := by
  intro hmem
  obtain ⟨⟨host', cmd⟩, ha, heq⟩ := List.mem_filterMap.1 hmem
  cases cmd with
  | replaceVxlan i t b' =>
    obtain ⟨-, rfl⟩ := Prod.mk.inj (Option.some.inj heq)
    exact ne_of_kind (hacts _ ha).1 hb rfl
  | _ => cases heq

theorem kindAt_foldl_ensureBridge (hacts : ∀ a ∈ acts, a.WellNamed) (hb : kind b = ['b', 'r'])
    (h : (host, .ensureBridge b) ∈ acts) (hnone : kindAt (net host) b = none) :
    kindAt (acts.foldl Act.apply net host) b = some .bridge := by
  induction acts generalizing net with
  | nil => exact absurd h List.not_mem_nil
  | cons a acts ih =>
    have hacts' : ∀ a ∈ acts, a.WellNamed := fun a ha => hacts a (List.mem_cons_of_mem _ ha)
    have hstays (hbridge : kindAt (a.apply net host) b = some .bridge) :
        kindAt ((a :: acts).foldl Act.apply net host) b = some .bridge := by
      rw [List.foldl_cons, kindAt_foldl (bridge_notMem_targets hacts' hb) (by simp [hbridge]),
        hbridge]
    rcases List.mem_cons.1 h with rfl | h
    · exact hstays (kindAt_apply_ensureBridge hnone)
    · have htarget : a.target ≠ some (host, b) := fun heq =>
        bridge_notMem_targets hacts hb (List.mem_filterMap.2 ⟨a, List.mem_cons_self, heq⟩)
      have hnext : kindAt (a.apply net host) b = none ∨ kindAt (a.apply net host) b = some .bridge := by
        obtain ⟨host', cmd⟩ := a
        rcases eq_or_ne host host' with rfl | hne
        · rw [apply_host]
          exact kindAt_effect_of_none htarget hnone
        · rw [apply_of_ne hne]
          exact .inl hnone
      rcases hnext with hnext | hnext
      · exact ih hacts' h hnext
      · exact hstays hnext

/-- Nothing else has the name of a bridge. -/
def FreeForBridge (links : Ifaces) (b : String) : Prop :=
  kindAt links b = none ∨ kindAt links b = some .bridge

theorem isBridge_foldl (hacts : ∀ a ∈ acts, a.WellNamed) (hb : kind b = ['b', 'r'])
    (h : (host, .ensureBridge b) ∈ acts) :
    isBridge b (acts.foldl Act.apply net host) = true ↔ FreeForBridge (net host) b := by
  rw [isBridge_iff, FreeForBridge]
  by_cases hnone : kindAt (net host) b = none
  · exact iff_of_true (kindAt_foldl_ensureBridge hacts hb h hnone) (.inl hnone)
  · rw [kindAt_foldl (bridge_notMem_targets hacts hb) hnone, or_iff_right hnone]

theorem tunnel_foldl {l : Iface} (hacts : ∀ a ∈ acts, a.WellNamed) (hn : kind n = ['v', 'x'])
    (hl : ∀ i, kind i = ['v', 'x'] → l.master ≠ some i)
    (htarget : ∀ a ∈ acts, a.target ≠ some (host, n)) (h : (net host).get? n = some l) :
    (acts.foldl Act.apply net host).get? n = some l := by
  induction acts generalizing net with
  | nil => exact h
  | cons a acts ih =>
    exact ih (fun a ha => hacts a (List.mem_cons_of_mem _ ha))
      (fun a ha => htarget a (List.mem_cons_of_mem _ ha))
      (tunnel_apply (hacts a List.mem_cons_self) hn hl (htarget a List.mem_cons_self) h)

/-- A tunnel stands in the end, if its bridge was asked for before it, the hosts accept the commands
    and no two of them are for one interface; it is attached if nothing else has the name of the
    bridge. -/
theorem tunnel_of_sublist (hacts : ∀ a ∈ acts, a.WellNamed)
    (hnodup : (acts.filterMap Act.target).Nodup) (hacc : AllAccepted acts net)
    (h : [(host, .ensureBridge b), (host, .replaceVxlan n t b)].Sublist acts) :
    (acts.foldl Act.apply net host).get? n = some (tunnelOn t b) ↔ FreeForBridge (net host) b := by
  obtain ⟨before, rest, rfl, hbridge, h⟩ := List.cons_sublist_iff.1 h
  obtain ⟨between, after, rfl⟩ := List.append_of_mem (List.singleton_sublist.1 h)
  obtain ⟨hn, hb⟩ : kind n = ['v', 'x'] ∧ kind b = ['b', 'r'] :=
    hacts (host, .replaceVxlan n t b) (by simp)
  rw [← List.append_assoc] at hacts hnodup hacc ⊢
  obtain ⟨-, hself, -⟩ := allAccepted_append.1 hacc
  -- It is attached when it is made, if the bridge is one by then, and stays as it is.
  have hmade := get?_replaceVxlan_self (ne_of_kind hn hb).symm hself
  have hattached : isBridge b ((before ++ between).foldl Act.apply net host) = true ↔
      FreeForBridge (net host) b :=
    isBridge_foldl (fun a ha => hacts a (List.mem_append_left _ ha)) hb
      (List.mem_append_left _ hbridge)
  have hfinal : ((before ++ between ++ (host, .replaceVxlan n t b) :: after).foldl Act.apply net
      host).get? n = some ⟨.vxlan t, if isBridge b ((before ++ between).foldl Act.apply net host)
        then some b else none, true⟩ := by
    rw [List.foldl_append, List.foldl_cons]
    refine tunnel_foldl (fun a ha => hacts a (by simp [ha])) hn (fun i hi => ?_)
      (fun a ha heq => ?_) ?_
    · dsimp only
      split
      · exact fun heq => ne_of_kind hi hb (Option.some.inj heq).symm
      · exact nofun
    · rw [List.filterMap_append, List.nodup_append] at hnodup
      have hcons : ((host, RealnetCmd.replaceVxlan n t b) :: after).filterMap Act.target =
          (host, n) :: after.filterMap Act.target := rfl
      rw [hcons, List.nodup_cons] at hnodup
      exact hnodup.2.1.1 (List.mem_filterMap.2 ⟨a, ha, heq⟩)
    · rw [apply_host]
      exact hmade
  rw [hfinal, ← hattached, tunnelOn]
  cases isBridge b ((before ++ between).foldl Act.apply net host) <;> simp

end Acts

end Dnlab.Realnet
