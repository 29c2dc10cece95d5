import Dnlab.Services.Realnet.Plan
import Mathlib.Data.List.Dedup
import Mathlib.Data.List.Sigma

/-!
# Whether the fabric is complete

The master takes the tunnel to one worker of each real network and no more,
since a host has one tunnel with a number at a port. So the fabric is complete
exactly if no real network has two workers, the names and positions tell the
real networks apart, and nothing else is in the way of the tunnels and bridges
(`fabric_iff_apart`).
-/

namespace Dnlab.Realnet

/-! ## The fabric -/

/-- The real networks that some host takes part in, with their positions. -/
def active (topo : DistributedTopology) : List (String × ℕ) :=
  topo.realNets.keys.zipIdx.filter fun e => participatingHosts topo e.1 ≠ []

/-- The fabric is complete: every worker has a tunnel of its own with the master in each real network
    that it takes part in, and the networks are kept apart. -/
structure Fabric (topo : DistributedTopology) (underlay : Dict String String) (net : Net) : Prop where
  bridges : ∀ e ∈ active topo, ∀ e' ∈ active topo, e ≠ e' →
    Naming.realnetBridgeName topo.name e.1 ≠ Naming.realnetBridgeName topo.name e'.1
  vxlans : ∀ e ∈ active topo, ∀ e' ∈ active topo, e ≠ e' →
    Naming.realnetVxlanIface topo.name e.1 ≠ Naming.realnetVxlanIface topo.name e'.1
  vnis : ∀ e ∈ active topo, ∀ e' ∈ active topo, e ≠ e' →
    Ids.realnetVxlanId topo.name e.2 ≠ Ids.realnetVxlanId topo.name e'.2
  own : ∀ e ∈ active topo, ∀ h ∈ workers topo e.1, ∀ e' ∈ active topo, ∀ h' ∈ workers topo e'.1,
    (e, h) ≠ (e', h') → peerIface topo.name e.1 h ≠ peerIface topo.name e'.1 h'
  master : ∀ e ∈ active topo, ∀ h ∈ workers topo e.1,
    (net "master").get? (peerIface topo.name e.1 h) =
      some (tunnelOn (toWorker topo underlay e h) (Naming.realnetBridgeName topo.name e.1))
  workers : ∀ e ∈ active topo, ∀ h ∈ workers topo e.1,
    (net h).get? (Naming.realnetVxlanIface topo.name e.1) =
      some (tunnelOn (toMaster topo underlay e h) (Naming.realnetBridgeName topo.name e.1))

/-- The interfaces that the commands for one real network replace. -/
def netTargets (topo : DistributedTopology) (e : String × ℕ) : List (String × String) :=
  (sorted (workers topo e.1)).flatMap fun host =>
    [(host, Naming.realnetVxlanIface topo.name e.1), ("master", peerIface topo.name e.1 host)]

/-- The names and positions tell the real networks apart, none has a second worker, and nothing on the
    hosts is in the way. -/
structure Apart (topo : DistributedTopology) (net : Net) : Prop where
  names : ∀ e ∈ active topo, ∀ e' ∈ active topo, e ≠ e' →
    Naming.sanitizedShort e.1 ≠ Naming.sanitizedShort e'.1
  positions : ∀ e ∈ active topo, ∀ e' ∈ active topo, e ≠ e' → e.2 % 1000 ≠ e'.2 % 1000
  single : ∀ e ∈ active topo, (workers topo e.1).length ≤ 1
  bridges : ∀ e ∈ active topo, ∀ p ∈ netTargets topo e,
    FreeForBridge (net p.1) (Naming.realnetBridgeName topo.name e.1)
  -- an interface with the number is replaced by the tunnel, or by one of an earlier network
  numbers : ∀ e ∈ active topo, ∀ p ∈ netTargets topo e, ∀ n,
    Holds (net p.1) n (Ids.realnetVxlanId topo.name e.2) →
      n = p.2 ∨ ∃ e' ∈ active topo, e'.2 < e.2 ∧ (p.1, n) ∈ netTargets topo e'

theorem realnetVxlanId_inj {lab : String} {i j : ℕ} :
    Ids.realnetVxlanId lab i = Ids.realnetVxlanId lab j ↔ i % 1000 = j % 1000 := by
  unfold Ids.realnetVxlanId
  omega

section Complete

variable {ρ : Type} {M : Machines ρ} {topo : DistributedTopology} {underlay : Dict String String}

theorem wellNamed_plan : ∀ a ∈ plan M topo underlay, a.WellNamed := by
  intro a ha
  obtain ⟨e, _, ha⟩ := List.mem_flatMap.1 ha
  rw [netActs] at ha
  split at ha
  · exact absurd ha List.not_mem_nil
  · rcases List.mem_append.1 ha with ha | ha
    all_goals obtain ⟨host, _, ha⟩ := List.mem_flatMap.1 ha
    · rcases List.mem_pair.1 ha with rfl | rfl
      · exact kind_realnetBridgeName _ _
      · trivial
    · rcases List.mem_pair.1 ha with rfl | rfl
      · exact ⟨kind_realnetVxlanIface _ _, kind_realnetBridgeName _ _⟩
      · exact ⟨kind_peerIface _ _ _, kind_realnetBridgeName _ _⟩

theorem targets_bridgeActs (e : String × ℕ) (hosts : List String) :
    (hosts.flatMap (bridgeActs topo e)).filterMap Act.target = [] := by
  induction hosts with
  | nil => rfl
  | cons host hosts ih =>
    rw [List.flatMap_cons, List.filterMap_append, ih]
    rfl

theorem targets_workerActs (e : String × ℕ) (hosts : List String) :
    (hosts.flatMap (workerActs topo underlay e)).filterMap Act.target = hosts.flatMap fun host =>
      [(host, Naming.realnetVxlanIface topo.name e.1), ("master", peerIface topo.name e.1 host)] := by
  induction hosts with
  | nil => rfl
  | cons host hosts ih =>
    rw [List.flatMap_cons, List.filterMap_append, ih, List.flatMap_cons]
    rfl

theorem targets_netActs (l : List (String × ℕ)) :
    (l.flatMap (netActs M topo underlay)).filterMap Act.target =
      (l.filter fun e => participatingHosts topo e.1 ≠ []).flatMap (netTargets topo) := by
  induction l with
  | nil => rfl
  | cons e es ih =>
    rw [List.flatMap_cons, List.filterMap_append, ih, netActs]
    by_cases h : participatingHosts topo e.1 = []
    · rw [if_pos h, List.filter_cons_of_neg (by simpa using h)]
      rfl
    · rw [if_neg h, List.filter_cons_of_pos (by simpa using h), List.filterMap_append,
        targets_bridgeActs, targets_workerActs, List.flatMap_cons]
      rfl

theorem mem_netTargets {e : String × ℕ} {p : String × String} (h : p ∈ netTargets topo e) :
    ∃ host ∈ workers topo e.1, p = (host, Naming.realnetVxlanIface topo.name e.1) ∨
      p = ("master", peerIface topo.name e.1 host) := by
  obtain ⟨host, hhost, hp⟩ := List.mem_flatMap.1 h
  exact ⟨host, (List.mem_insertionSort _).1 hhost, List.mem_pair.1 hp⟩

theorem ne_master {rn host : String} (h : host ∈ workers topo rn) : host ≠ "master" := by
  simpa using (List.mem_filter.1 h).2

theorem nodup_workers (rn : String) : (workers topo rn).Nodup := (List.nodup_dedup _).filter _

theorem nodup_active : (active topo).Nodup :=
  (List.Nodup.of_map Prod.snd (List.nodup_zipIdx_map_snd _)).filter _

/-- On every host of a real network the bridge comes before the tunnel. -/
theorem sublist_plan {e : String × ℕ} {host : String} {a : Act} (he : e ∈ active topo)
    (hhost : host = "master" ∨ host ∈ workers topo e.1)
    (ha : a ∈ (sorted (workers topo e.1)).flatMap (workerActs topo underlay e)) :
    [(host, .ensureBridge (Naming.realnetBridgeName topo.name e.1)), a].Sublist
      (plan M topo underlay) := by
  obtain ⟨he, hparts⟩ := List.mem_filter.1 he
  have hnet : (netActs M topo underlay e).Sublist (plan M topo underlay) :=
    List.sublist_flatten_of_mem (List.mem_map_of_mem he)
  refine List.Sublist.trans ?_ hnet
  rw [netActs, if_neg (by simpa using hparts)]
  refine List.Sublist.append (List.singleton_sublist.2 (List.mem_flatMap.2
    ⟨host, (M.inOrder_perm _).mem_iff.2 (List.mem_cons.2 hhost), List.mem_cons_self⟩))
    (List.singleton_sublist.2 ha)

theorem allAccepted_bridgeActs (e : String × ℕ) (hosts : List String) (net : Net) :
    AllAccepted (hosts.flatMap (bridgeActs topo e)) net :=
  allAccepted_flatMap.2 fun _ _ _ _ => ⟨rfl, rfl, trivial⟩

/-- The commands for a worker are accepted unless there are other tunnels with their number. -/
theorem allAccepted_workerActs_iff {e : String × ℕ} {host : String} {net : Net}
    (hhost : host ≠ "master") : AllAccepted (workerActs topo underlay e host) net ↔
      ∀ p ∈ [(host, Naming.realnetVxlanIface topo.name e.1),
          ("master", peerIface topo.name e.1 host)],
        ∀ n, Holds (net p.1) n (Ids.realnetVxlanId topo.name e.2) → n = p.2 := by
  have hmaster : Act.apply net (host, .replaceVxlan (Naming.realnetVxlanIface topo.name e.1)
      (toMaster topo underlay e host) (Naming.realnetBridgeName topo.name e.1)) "master" =
      net "master" := apply_of_ne hhost.symm
  rw [workerActs, AllAccepted, AllAccepted, AllAccepted, and_true, hmaster,
    succeeds_replaceVxlan_iff rfl, succeeds_replaceVxlan_iff rfl, List.forall_mem_cons,
    List.forall_mem_singleton]
  rfl

theorem vni_of_mem_workerActs {e : String × ℕ} {host at_ n b : String} {t : Tunnel}
    (h : (at_, .replaceVxlan n t b) ∈ workerActs topo underlay e host) :
    t.vni = Ids.realnetVxlanId topo.name e.2 ∧ t.port = tunnelPort := by
  rcases List.mem_pair.1 h with heq | heq
  all_goals
    obtain ⟨-, rfl, -⟩ := RealnetCmd.replaceVxlan.inj (Prod.mk.inj heq).2
    exact ⟨rfl, rfl⟩

theorem holds_of_kindAt {links : Ifaces} {n : String} {t : Tunnel}
    (h : kindAt links n = some (.vxlan t)) (ht : t.port = tunnelPort) : Holds links n t.vni := by
  rw [Holds, h]
  simp [IfaceKind.numbered, ht]

/-- The bridges change nothing about the tunnels. -/
theorem holds_bridgeActs {e : String × ℕ} {hosts : List String} {net : Net} {host n : String}
    {vni : ℕ} : Holds ((hosts.flatMap (bridgeActs topo e)).foldl Act.apply net host) n vni ↔
      Holds (net host) n vni :=
  holds_foldl (by rw [targets_bridgeActs]; exact List.not_mem_nil)

theorem netActs_of_active {e : String × ℕ} (he : e ∈ active topo) :
    netActs M topo underlay e =
      (M.inOrder ("master" :: workers topo e.1)).flatMap (bridgeActs topo e) ++
        (sorted (workers topo e.1)).flatMap (workerActs topo underlay e) :=
  if_neg (by simpa using (List.mem_filter.1 he).2)

/-- The commands for a network with one worker are accepted unless there are other tunnels with their
    number. -/
theorem allAccepted_netActs_iff {e : String × ℕ} {net : Net} (he : e ∈ active topo)
    (hsingle : (workers topo e.1).length ≤ 1) : AllAccepted (netActs M topo underlay e) net ↔
      ∀ p ∈ netTargets topo e, ∀ n,
        Holds (net p.1) n (Ids.realnetVxlanId topo.name e.2) → n = p.2 := by
  rw [netActs_of_active he, allAccepted_append, and_iff_right (allAccepted_bridgeActs e _ net),
    netTargets]
  rcases hworkers : workers topo e.1 with _ | ⟨host, _ | ⟨host', hosts⟩⟩
  · exact iff_of_true trivial fun p hp => absurd hp List.not_mem_nil
  · have hmem : host ∈ workers topo e.1 := by
      rw [hworkers]
      exact List.mem_cons_self
    have hhost := ne_master hmem
    change AllAccepted (workerActs topo underlay e host ++ []) _ ↔ _
    rw [List.append_nil, allAccepted_workerActs_iff hhost]
    refine forall₂_congr fun p _ => forall_congr' fun n => ?_
    rw [holds_bridgeActs]
  · rw [hworkers] at hsingle
    simp at hsingle

/-- The master takes no tunnel to a second worker, unless it is for the same interface. -/
theorem AllAccepted.single {e : String × ℕ} {net : Net} (he : e ∈ active topo)
    (h : AllAccepted (netActs M topo underlay e) net)
    (hown : ∀ h ∈ workers topo e.1, ∀ h' ∈ workers topo e.1, h ≠ h' →
      peerIface topo.name e.1 h ≠ peerIface topo.name e.1 h') :
    (workers topo e.1).length ≤ 1 := by
  by_contra hlen
  obtain ⟨host, host', hosts, hsorted⟩ : ∃ host host' hosts,
      sorted (workers topo e.1) = host :: host' :: hosts := by
    have hlen' : (sorted (workers topo e.1)).length = (workers topo e.1).length :=
      (List.perm_insertionSort _ _).length_eq
    rcases hs : sorted (workers topo e.1) with _ | ⟨host, _ | ⟨host', hosts⟩⟩
    · rw [hs, List.length_nil] at hlen'
      omega
    · rw [hs, List.length_singleton] at hlen'
      omega
    · exact ⟨host, host', hosts, rfl⟩
  have hnodup : (sorted (workers topo e.1)).Nodup :=
    (List.perm_insertionSort _ _).nodup_iff.2 (nodup_workers e.1)
  have hmem (x : String) (hx : x ∈ sorted (workers topo e.1)) := mem_sorted.1 hx
  rw [hsorted] at hnodup hmem
  have hhost := hmem host List.mem_cons_self
  have hhost' := hmem host' (List.mem_cons_of_mem _ List.mem_cons_self)
  have hne : host ≠ host' := fun heq =>
    (List.nodup_cons.1 hnodup).1 (heq ▸ List.mem_cons_self)
  rw [netActs_of_active he, allAccepted_append, hsorted, List.flatMap_cons, List.flatMap_cons,
    allAccepted_append, allAccepted_append] at h
  obtain ⟨-, hfirst, hsecond, -⟩ := h
  -- The master has the tunnel to the first worker when the one to the second is made.
  have hpeer : ("master", peerIface topo.name e.1 host) ∈
      (workerActs topo underlay e host).filterMap Act.target := by
    simp [workerActs, Act.target]
  obtain ⟨t, b, ht, hkind⟩ := kindAt_of_mem_targets hfirst hpeer
  obtain ⟨hvni, hport⟩ := vni_of_mem_workerActs ht
  have hholds := holds_of_kindAt hkind hport
  rw [hvni] at hholds
  exact hown host hhost host' hhost' hne ((allAccepted_workerActs_iff (ne_master hhost')).1 hsecond
    ("master", peerIface topo.name e.1 host') (List.mem_cons_of_mem _ List.mem_cons_self) _ hholds)

theorem vni_of_mem_netActs {e : String × ℕ} {host n b : String} {t : Tunnel}
    (h : (host, .replaceVxlan n t b) ∈ netActs M topo underlay e) :
    t.vni = Ids.realnetVxlanId topo.name e.2 ∧ t.port = tunnelPort := by
  rw [netActs] at h
  split at h
  · exact absurd h List.not_mem_nil
  · rcases List.mem_append.1 h with h | h
    all_goals obtain ⟨host', _, h⟩ := List.mem_flatMap.1 h
    · rcases List.mem_pair.1 h with heq | heq <;> cases heq
    · exact vni_of_mem_workerActs h

/-- The networks before one are those with a lower position. -/
theorem mem_before_iff {l₁ l₂ : List (String × ℕ)} {e e' : String × ℕ}
    (h : topo.realNets.keys.zipIdx = l₁ ++ e :: l₂) (he' : e' ∈ topo.realNets.keys.zipIdx) :
    e' ∈ l₁ ↔ e'.2 < e.2 := by
  have hlt : (topo.realNets.keys.zipIdx).Pairwise fun e e' => e.2 < e'.2 := by
    rw [← List.pairwise_map (f := Prod.snd) (R := (· < ·)), List.zipIdx_map_snd]
    exact List.pairwise_lt_range'
  rw [h, List.pairwise_append, List.pairwise_cons] at hlt
  obtain ⟨-, ⟨hafter, -⟩, hbefore⟩ := hlt
  refine ⟨fun hmem => hbefore e' hmem e List.mem_cons_self, fun hlt => ?_⟩
  rw [h, List.mem_append, List.mem_cons] at he'
  rcases he' with hmem | rfl | hmem
  · exact hmem
  · exact absurd hlt (lt_irrefl _)
  · exact absurd (hafter e' hmem) (by omega)

theorem mem_active_iff {e : String × ℕ} :
    e ∈ active topo ↔ e ∈ topo.realNets.keys.zipIdx ∧ participatingHosts topo e.1 ≠ [] := by
  rw [active, List.mem_filter, decide_eq_true_iff]

theorem mem_targets_before_iff {l₁ l₂ : List (String × ℕ)} {e : String × ℕ} {p : String × String}
    (h : topo.realNets.keys.zipIdx = l₁ ++ e :: l₂) :
    p ∈ (l₁.flatMap (netActs M topo underlay)).filterMap Act.target ↔
      ∃ e' ∈ active topo, e'.2 < e.2 ∧ p ∈ netTargets topo e' := by
  have hall (e' : String × ℕ) (he' : e' ∈ l₁) : e' ∈ topo.realNets.keys.zipIdx := by
    rw [h]
    exact List.mem_append_left _ he'
  simp only [targets_netActs, List.mem_flatMap, List.mem_filter, decide_eq_true_iff, mem_active_iff]
  constructor
  · rintro ⟨e', ⟨he', hparts⟩, hp⟩
    exact ⟨e', ⟨hall e' he', hparts⟩, (mem_before_iff h (hall e' he')).1 he', hp⟩
  · rintro ⟨e', ⟨he', hparts⟩, hlt, hp⟩
    exact ⟨e', ⟨(mem_before_iff h he').2 hlt, hparts⟩, hp⟩

/-- What the commands for some networks have replaced are tunnels with the numbers of these. -/
theorem exists_of_mem_targets {l : List (String × ℕ)} {net : Net} {host n : String}
    (hacc : AllAccepted (l.flatMap (netActs M topo underlay)) net)
    (h : (host, n) ∈ (l.flatMap (netActs M topo underlay)).filterMap Act.target) :
    ∃ e ∈ l, participatingHosts topo e.1 ≠ [] ∧ ∀ vni,
      Holds ((l.flatMap (netActs M topo underlay)).foldl Act.apply net host) n vni →
        Ids.realnetVxlanId topo.name e.2 = vni := by
  obtain ⟨t, b, ht, hkind⟩ := kindAt_of_mem_targets hacc h
  obtain ⟨e, he, ht⟩ := List.mem_flatMap.1 ht
  refine ⟨e, he, fun hnone => ?_, fun vni hvni => ?_⟩
  · rw [netActs, if_pos hnone] at ht
    exact List.not_mem_nil ht
  · rw [Holds, hkind] at hvni
    simp only [Option.any_some, IfaceKind.numbered, Bool.and_eq_true, decide_eq_true_eq] at hvni
    rw [← hvni.1, (vni_of_mem_netActs ht).1]

/-- The hosts accept the commands if and only if every tunnel with the number of a network is replaced
    before its own are made. -/
theorem allAccepted_plan_iff {net : Net}
    (hpos : ∀ e ∈ active topo, ∀ e' ∈ active topo, e ≠ e' → e.2 % 1000 ≠ e'.2 % 1000)
    (hsingle : ∀ e ∈ active topo, (workers topo e.1).length ≤ 1) :
    AllAccepted (plan M topo underlay) net ↔ ∀ e ∈ active topo, ∀ p ∈ netTargets topo e, ∀ n,
      Holds (net p.1) n (Ids.realnetVxlanId topo.name e.2) →
        n = p.2 ∨ ∃ e' ∈ active topo, e'.2 < e.2 ∧ (p.1, n) ∈ netTargets topo e' := by
  constructor
  · intro hacc e he p hp n hn
    obtain ⟨l₁, l₂, heq⟩ := List.append_of_mem (List.mem_of_mem_filter he)
    rw [or_iff_not_imp_right]
    intro hearlier
    have htarget : (p.1, n) ∉ (l₁.flatMap (netActs M topo underlay)).filterMap Act.target :=
      fun hmem => hearlier ((mem_targets_before_iff heq).1 hmem)
    have hnet := allAccepted_flatMap.1 hacc l₁ e l₂ heq
    exact (allAccepted_netActs_iff he (hsingle e he)).1 hnet p hp n ((holds_foldl htarget).2 hn)
  · intro hfree
    -- the numbers differ, so that a tunnel of an earlier network is in no one's way
    have hprefix : ∀ l, l <+: topo.realNets.keys.zipIdx →
        AllAccepted (l.flatMap (netActs M topo underlay)) net := by
      intro l
      induction l using List.reverseRecOn with
      | nil => exact fun _ => trivial
      | append_singleton l e ih =>
        rintro ⟨l₂, heq⟩
        rw [List.append_assoc, List.singleton_append] at heq
        have hbefore := ih ⟨e :: l₂, heq⟩
        rw [List.flatMap_append, List.flatMap_singleton, allAccepted_append]
        refine ⟨hbefore, ?_⟩
        by_cases hparts : participatingHosts topo e.1 = []
        · rw [netActs, if_pos hparts]
          trivial
        · have hmem : e ∈ topo.realNets.keys.zipIdx := by
            rw [← heq]
            exact List.mem_append_right _ List.mem_cons_self
          have he : e ∈ active topo := mem_active_iff.2 ⟨hmem, hparts⟩
          refine (allAccepted_netActs_iff he (hsingle e he)).2 fun p hp n hn => ?_
          by_cases htarget : (p.1, n) ∈ (l.flatMap (netActs M topo underlay)).filterMap Act.target
          · obtain ⟨e', he', hparts', hvni⟩ := exists_of_mem_targets hbefore htarget
            have hmem' : e' ∈ topo.realNets.keys.zipIdx := by
              rw [← heq]
              exact List.mem_append_left _ he'
            have hlt := (mem_before_iff heq.symm hmem').1 he'
            have hne : e' ≠ e := fun h => absurd (h ▸ hlt) (lt_irrefl _)
            exact absurd (realnetVxlanId_inj.1 (hvni _ hn))
              (hpos e' (mem_active_iff.2 ⟨hmem', hparts'⟩) e he hne)
          · have hn' := (holds_foldl htarget).1 hn
            refine (hfree e he p hp n hn').resolve_right fun hearlier => htarget ?_
            exact (mem_targets_before_iff heq.symm).2 hearlier
    exact hprefix _ (List.prefix_refl _)

/-! ### The result -/

theorem own_of_names
    (hnames : ∀ e ∈ active topo, ∀ e' ∈ active topo, e ≠ e' →
      Naming.sanitizedShort e.1 ≠ Naming.sanitizedShort e'.1)
    (hsingle : ∀ e ∈ active topo, (workers topo e.1).length ≤ 1) {e e' : String × ℕ}
    {host host' : String} (he : e ∈ active topo) (hhost : host ∈ workers topo e.1)
    (he' : e' ∈ active topo) (hhost' : host' ∈ workers topo e'.1) (hne : (e, host) ≠ (e', host')) :
    peerIface topo.name e.1 host ≠ peerIface topo.name e'.1 host' := by
  intro heq
  by_cases hnet : e = e'
  · subst hnet
    have hone := hsingle e he
    rcases hworkers : workers topo e.1 with _ | ⟨host₀, _ | ⟨host₁, hosts⟩⟩
    · rw [hworkers] at hhost
      exact List.not_mem_nil hhost
    · rw [hworkers, List.mem_singleton] at hhost hhost'
      exact hne (by rw [hhost, hhost'])
    · rw [hworkers, List.length_cons, List.length_cons] at hone
      omega
  · exact hnames e he e' he' hnet (peerIface_inj.1 heq).1

/-- No two commands replace the same interface. -/
theorem nodup_targets
    (hnames : ∀ e ∈ active topo, ∀ e' ∈ active topo, e ≠ e' →
      Naming.sanitizedShort e.1 ≠ Naming.sanitizedShort e'.1)
    (hsingle : ∀ e ∈ active topo, (workers topo e.1).length ≤ 1) :
    ((plan M topo underlay).filterMap Act.target).Nodup := by
  rw [plan, targets_netActs, List.nodup_flatMap]
  constructor
  · -- the commands for one network
    intro e he
    have hworkers : ∀ host ∈ sorted (workers topo e.1), host ∈ workers topo e.1 := fun host =>
      (List.mem_insertionSort _).1
    have hsorted : (sorted (workers topo e.1)).Nodup :=
      (List.perm_insertionSort _ _).nodup_iff.2 (nodup_workers e.1)
    rw [netTargets, List.nodup_flatMap]
    refine ⟨fun host hhost => ?_, hsorted.imp_of_mem fun {host host'} hhost hhost' hne => ?_⟩
    · have hmaster := ne_master (hworkers host hhost)
      simp [hmaster]
    · have hpeer := own_of_names hnames hsingle he (hworkers host hhost) he (hworkers host' hhost')
        (fun heq => hne (congrArg Prod.snd heq))
      have hmaster := ne_master (hworkers host hhost)
      have hmaster' := ne_master (hworkers host' hhost')
      simp only [Function.onFun, List.disjoint_cons_left, List.mem_cons, Prod.mk.injEq,
        List.not_mem_nil, or_false, not_or, List.disjoint_nil_left, and_true]
      exact ⟨⟨hne, fun heq => hmaster heq.1⟩, fun heq => hmaster' heq.1.symm, fun heq => hpeer heq.2⟩
  · -- the commands for two networks
    refine nodup_active.imp_of_mem fun {e e'} he he' hne => ?_
    intro p hp hp'
    obtain ⟨host, hhost, hp⟩ := mem_netTargets hp
    obtain ⟨host', hhost', hp'⟩ := mem_netTargets hp'
    have hvxlan : Naming.realnetVxlanIface topo.name e.1 ≠ Naming.realnetVxlanIface topo.name e'.1 :=
      fun heq => hnames e he e' he' hne (realnetVxlanIface_inj.1 heq)
    have hpeer := own_of_names hnames hsingle he hhost he' hhost' fun heq => hne (congrArg Prod.fst heq)
    rcases hp with rfl | rfl <;> rcases hp' with heq | heq
    · exact hvxlan (Prod.mk.inj heq).2
    · exact ne_master hhost (Prod.mk.inj heq).1
    · exact ne_master hhost' (Prod.mk.inj heq).1.symm
    · exact hpeer (Prod.mk.inj heq).2

/-- What commands that are accepted have built is complete if and only if nothing was in the way. -/
theorem fabric_foldl_iff_apart {net : Net} (hacc : AllAccepted (plan M topo underlay) net) :
    Fabric topo underlay ((plan M topo underlay).foldl Act.apply net) ↔ Apart topo net := by
  have htunnel (hnodup : ((plan M topo underlay).filterMap Act.target).Nodup) {e : String × ℕ}
      {host i : String} {t : Tunnel} (he : e ∈ active topo)
      (hhost : host = "master" ∨ host ∈ workers topo e.1)
      (ha : (host, .replaceVxlan i t (Naming.realnetBridgeName topo.name e.1)) ∈
        (sorted (workers topo e.1)).flatMap (workerActs topo underlay e)) :=
    tunnel_of_sublist wellNamed_plan hnodup hacc (sublist_plan he hhost ha)
  have hworker {e : String × ℕ} {host : String} (hhost : host ∈ workers topo e.1) :
      (host, .replaceVxlan (Naming.realnetVxlanIface topo.name e.1) (toMaster topo underlay e host)
        (Naming.realnetBridgeName topo.name e.1)) ∈
          (sorted (workers topo e.1)).flatMap (workerActs topo underlay e) :=
    List.mem_flatMap.2 ⟨host, mem_sorted.2 hhost, List.mem_pair.2 (.inl rfl)⟩
  have hmaster {e : String × ℕ} {host : String} (hhost : host ∈ workers topo e.1) :
      ("master", .replaceVxlan (peerIface topo.name e.1 host) (toWorker topo underlay e host)
        (Naming.realnetBridgeName topo.name e.1)) ∈
          (sorted (workers topo e.1)).flatMap (workerActs topo underlay e) :=
    List.mem_flatMap.2 ⟨host, mem_sorted.2 hhost, List.mem_pair.2 (.inr rfl)⟩
  constructor
  · intro hf
    have hnames : ∀ e ∈ active topo, ∀ e' ∈ active topo, e ≠ e' →
        Naming.sanitizedShort e.1 ≠ Naming.sanitizedShort e'.1 :=
      fun e he e' he' hne heq => hf.vxlans e he e' he' hne (realnetVxlanIface_inj.2 heq)
    have hpos : ∀ e ∈ active topo, ∀ e' ∈ active topo, e ≠ e' → e.2 % 1000 ≠ e'.2 % 1000 :=
      fun e he e' he' hne heq => hf.vnis e he e' he' hne (realnetVxlanId_inj.2 heq)
    -- Linux would have refused the second tunnel of a network.
    have hsingle : ∀ e ∈ active topo, (workers topo e.1).length ≤ 1 := by
      intro e he
      obtain ⟨l₁, l₂, heq⟩ := List.append_of_mem (List.mem_of_mem_filter he)
      exact (allAccepted_flatMap.1 hacc l₁ e l₂ heq).single he fun host hhost host' hhost' hne =>
        hf.own e he host hhost e he host' hhost' fun h => hne (congrArg Prod.snd h)
    refine
      { names := hnames
        positions := hpos
        single := hsingle
        bridges := fun e he p hp => ?_
        numbers := (allAccepted_plan_iff hpos hsingle).1 hacc }
    have hnodup : ((plan M topo underlay).filterMap Act.target).Nodup :=
      nodup_targets hnames hsingle
    obtain ⟨host, hhost, rfl | rfl⟩ := mem_netTargets hp
    · exact (htunnel hnodup he (.inr hhost) (hworker hhost)).1 (hf.workers e he host hhost)
    · exact (htunnel hnodup he (.inl rfl) (hmaster hhost)).1 (hf.master e he host hhost)
  · intro hn
    have hnodup : ((plan M topo underlay).filterMap Act.target).Nodup :=
      nodup_targets hn.names hn.single
    exact
      { bridges := fun e he e' he' hne heq =>
          hn.names e he e' he' hne (realnetBridgeName_inj.1 heq)
        vxlans := fun e he e' he' hne heq =>
          hn.names e he e' he' hne (realnetVxlanIface_inj.1 heq)
        vnis := fun e he e' he' hne heq =>
          hn.positions e he e' he' hne (realnetVxlanId_inj.1 heq)
        own := fun e he host hhost e' he' host' hhost' hne =>
          own_of_names hn.names hn.single he hhost he' hhost' hne
        master := fun e he host hhost =>
          (htunnel hnodup he (.inl rfl) (hmaster hhost)).2
            (hn.bridges e he _ (List.mem_flatMap.2
              ⟨host, mem_sorted.2 hhost, List.mem_pair.2 (.inr rfl)⟩))
        workers := fun e he host hhost =>
          (htunnel hnodup he (.inr hhost) (hworker hhost)).2
            (hn.bridges e he _ (List.mem_flatMap.2
              ⟨host, mem_sorted.2 hhost, List.mem_pair.2 (.inl rfl)⟩)) }

/-- The fabric that a run has built is complete if and only if nothing was in the way; and if the hosts
    refuse nothing but a second tunnel with a number, the run also ends normally. -/
theorem fabric_iff_apart (M : Machines ρ) (topo : DistributedTopology) (clients : Clients)
    (underlay : Dict String String) (s : Hosts ρ) :
    (∀ states s', (setupBridges M topo clients underlay).run s = (.ok states, s') →
      (Fabric topo underlay s'.net ↔ Apart topo s.net)) ∧
    (M.Obey →
      ((∃ states s', (setupBridges M topo clients underlay).run s = (.ok states, s') ∧
          Fabric topo underlay s'.net) ↔ Known topo underlay clients ∧ Apart topo s.net)) := by
  have hdoes : Does M (Known topo underlay clients) (plan M topo underlay)
      (setupBridges M topo clients underlay) := does_setupBridges
  have hbuilt (states s') (h : (setupBridges M topo clients underlay).run s = (.ok states, s')) :
      Fabric topo underlay s'.net ↔ Apart topo s.net := by
    obtain ⟨-, hacc, hnet⟩ := hdoes.only h
    rw [hnet]
    exact fabric_foldl_iff_apart hacc
  refine ⟨hbuilt, fun hobey => ⟨?_, ?_⟩⟩
  · rintro ⟨states, s', h, hf⟩
    exact ⟨(hdoes.only h).1, (hbuilt states s' h).1 hf⟩
  · rintro ⟨hknown, hn⟩
    have hacc : AllAccepted (plan M topo underlay) s.net :=
      (allAccepted_plan_iff hn.positions hn.single).2 hn.numbers
    obtain ⟨states, s', h⟩ := hdoes.ends hobey s hknown hacc
    exact ⟨states, s', h, (hbuilt states s' h).2 hn⟩

end Complete

/-! ### Two networks, and two workers in one network -/

/-- Hosts that do as they are told. -/
def quietMachines : Machines Unit where
  refuses _ _ env := (false, env)
  inOrder hosts := hosts
  inOrder_perm _ := .refl _

/-- A lab whose real networks have a device on each of these hosts. -/
def wanTopo (attached : List (String × String)) : DistributedTopology where
  name := "office"
  master := { name := "master", host := "10.0.0.1", isMaster := true }
  workers := .ofList (attached.map fun (_, host) => (host, { name := host, host := host }))
  underlayIface := "eth0"
  nodes := ∅
  links := []
  mgmt :=
    { network := "mgmt", bridge := "br-mgmt", ipv4Subnet := "172.20.0.0/24"
      ipv4Gw := "172.20.0.1" }
  realNets := .ofList (attached.map fun (realNet, _) => (realNet, { name := realNet }))
  realNetLinks := attached.map fun (realNet, host) =>
    { realNet := realNet, node := "r-" ++ host, iface := "eth1", host := host }

/-- The addresses of its hosts. -/
def wanUnderlay (attached : List (String × String)) : Dict String String :=
  .ofList (("master", "10.0.0.1") :: attached.map fun (_, host) => (host, host ++ ".lan"))

/-- The run of `setup_bridges` for it. -/
def wanRun (attached : List (String × String)) (net : Net) :
    Except Err (List RealNetState) × Hosts Unit :=
  (setupBridges quietMachines (wanTopo attached) (wanTopo attached).allHosts
    (wanUnderlay attached)).run ⟨(), net⟩

/-- A tunnel of an earlier run on `w1`, and one of another program on the master. -/
def usedNet : Net := fun host =>
  if host = "w1" then
    .ofList
      [("eth0", ⟨.other, none, true⟩),
        ("vxofficinter",
          ⟨.vxlan { vni := 5866, remote := "", localIp := "", dev := "eth0" }, none, true⟩)]
  else if host = "master" then
    .ofList
      [("brofficinter", ⟨.bridge, none, true⟩),
        ("overlay",
          ⟨.vxlan { vni := 5866, remote := "", localIp := "", port := 4789, dev := "eth0" }, none,
            true⟩)]
  else ∅

/-- Only names of interfaces matter. -/
theorem forall_holds_iff {links : Ifaces} {vni : ℕ} {P : String → Prop} :
    (∀ n, Holds links n vni → P n) ↔ ∀ n ∈ links.keys, Holds links n vni → P n := by
  refine ⟨fun h n _ => h n, fun h n hn => h n ?_ hn⟩
  by_contra hno
  rw [Holds, kindAt, Dict.get?_eq_none_iff.2 hno] at hn
  cases hn

instance (links : Ifaces) (n : String) (vni : ℕ) : Decidable (Holds links n vni) :=
  inferInstanceAs (Decidable (_ = true))

instance (links : Ifaces) (b : String) : Decidable (FreeForBridge links b) :=
  inferInstanceAs (Decidable (_ ∨ _))

theorem fabric_wan : ∃ states,
    (wanRun [("internet", "w1"), ("campus", "w2")] usedNet).1 = .ok states ∧
      Fabric (wanTopo [("internet", "w1"), ("campus", "w2")])
        (wanUnderlay [("internet", "w1"), ("campus", "w2")])
        (wanRun [("internet", "w1"), ("campus", "w2")] usedNet).2.net := by
  have hknown : Known (wanTopo [("internet", "w1"), ("campus", "w2")])
      (wanUnderlay [("internet", "w1"), ("campus", "w2")])
      (wanTopo [("internet", "w1"), ("campus", "w2")]).allHosts := by
    refine ⟨by decide +kernel, ?_⟩
    simp only [KnownFor]
    decide +kernel
  have hapart : Apart (wanTopo [("internet", "w1"), ("campus", "w2")]) usedNet :=
    { names := by decide +kernel
      positions := by decide +kernel
      single := by decide +kernel
      bridges := by decide +kernel
      numbers := by
        simp only [forall_holds_iff]
        decide +kernel }
  obtain ⟨states, s', h, hfabric⟩ := ((fabric_iff_apart quietMachines _ _ _ ⟨(), usedNet⟩).2
    fun _ _ _ => rfl).2 ⟨hknown, hapart⟩
  have hrun : wanRun [("internet", "w1"), ("campus", "w2")] usedNet = (.ok states, s') := h
  exact ⟨states, by rw [hrun], by rwa [hrun]⟩

/-- The interface towards `worker1` is deleted for the one towards `worker2`; with shorter names the
    master takes no second tunnel. -/
theorem not_fabric_wan :
    (wanRun [("internet", "worker1"), ("internet", "worker2")] fun _ => ∅).1.isOk = true ∧
      ¬Fabric (wanTopo [("internet", "worker1"), ("internet", "worker2")])
        (wanUnderlay [("internet", "worker1"), ("internet", "worker2")])
        (wanRun [("internet", "worker1"), ("internet", "worker2")] fun _ => ∅).2.net ∧
    (wanRun [("internet", "w1"), ("internet", "w2")] fun _ => ∅).1.isOk = false := by
  refine ⟨by decide +kernel, fun h => ?_, by decide +kernel⟩
  have hactive : ("internet", 0) ∈
      active (wanTopo [("internet", "worker1"), ("internet", "worker2")]) := by decide +kernel
  have hworkers : workers (wanTopo [("internet", "worker1"), ("internet", "worker2")]) "internet" =
      ["worker1", "worker2"] := by decide +kernel
  refine h.own ("internet", 0) hactive "worker1" ?_ ("internet", 0) hactive "worker2" ?_ (by decide) ?_
  · rw [hworkers]
    simp
  · rw [hworkers]
    simp
  · decide +kernel

end Dnlab.Realnet
