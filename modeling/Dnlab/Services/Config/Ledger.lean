import Dnlab.Services.Config

/-!
# What the passes make of the ledger

The three passes of `assignStickyMgmtIpv4`, one result for each: what is carried
over is linked in both directions (`Linked`), the claims take the addresses over
and evict (`sticky_afterClaims_of_notMem`, `sticky_afterClaims_of_mem`), and the rest settle on
addresses that nobody has (`settled_of_settleAll`).
-/

namespace Dnlab.Config

open Ip (Network)

/-- A device may have an address. -/
def Usable (net : Network) (reserved : List ℕ) (ip : ℕ) : Prop :=
  net.contains ip = true ∧ ip ∉ reserved

/-- The first owner that the reservations give an address to. -/
def holder (reservations : List (String × String)) (ip : ℕ) : Option String :=
  (reservations.find? fun e => (Ip.parse e.2).toOption = some ip).map Prod.fst

theorem holder_cons (e : String × String) (entries : List (String × String)) (ip : ℕ) :
    holder (e :: entries) ip = if Ip.parse e.2 = .ok ip then some e.1 else holder entries ip := by
  have hiff : (Ip.parse e.2).toOption = some ip ↔ Ip.parse e.2 = .ok ip := by
    cases Ip.parse e.2 <;> simp [Except.toOption]
  rw [holder, List.find?_cons]
  by_cases h : Ip.parse e.2 = .ok ip
  · rw [decide_eq_true (hiff.2 h), if_pos h]
    rfl
  · rw [decide_eq_false (mt hiff.1 h), if_neg h]
    rfl

theorem mem_of_holder {entries : List (String × String)} {ip : ℕ} {k : String}
    (h : holder entries ip = some k) : ∃ value, (k, value) ∈ entries ∧ Ip.parse value = .ok ip := by
  induction entries with
  | nil => cases h
  | cons e entries ih =>
    rw [holder_cons] at h
    split at h
    · rename_i hp
      obtain rfl := Option.some.inj h
      exact ⟨e.2, List.mem_cons_self, hp⟩
    · obtain ⟨value, hmem, hp⟩ := ih h
      exact ⟨value, List.mem_cons_of_mem _ hmem, hp⟩

theorem holder_ne_none {entries : List (String × String)} {ip : ℕ} {k value : String}
    (hmem : (k, value) ∈ entries) (hp : Ip.parse value = .ok ip) : holder entries ip ≠ none := by
  induction entries with
  | nil => exact absurd hmem (by simp)
  | cons e entries ih =>
    rw [holder_cons]
    split
    · simp
    · rename_i hne
      rcases List.mem_cons.1 hmem with rfl | hmem
      · exact absurd hp hne
      · exact ih hmem

/-- The reservations give an address to an owner. -/
def Holds (reservations : Dict String String) (owner : String) (ip : ℕ) : Prop :=
  ∃ value, reservations.get? owner = some value ∧ Ip.parse value = .ok ip

namespace Ledger

variable {L : Ledger} {name k : String} {ip ip' : ℕ}

@[simp] theorem assign_sticky : (L.assign name ip).sticky = L.sticky.set name (Ip.text ip) := rfl

@[simp] theorem assign_ipOwner : (L.assign name ip).ipOwner = L.ipOwner.set ip name := rfl

end Ledger

section Carried

variable {net : Network} {reserved : List ℕ} {L : Ledger} {reservations : Dict String String}

theorem carry_of_not_usable {e : String × String}
    (h : ∀ ip, Ip.parse e.2 = .ok ip → Usable net reserved ip → L.ipOwner.get? ip ≠ none) :
    carry net reserved L e = L := by
  rw [carry]
  cases hp : Ip.parse e.2 with
  | error _ => rfl
  | ok ip =>
    dsimp only
    split_ifs with hnet hres howner
    · rfl
    · rfl
    · refine absurd ?_ (h ip hp ⟨hnet, hres⟩)
      simpa [Dict.contains] using howner
    · rfl

theorem carry_of_usable {e : String × String} {ip : ℕ} (hp : Ip.parse e.2 = .ok ip)
    (hu : Usable net reserved ip) (hfree : L.ipOwner.get? ip = none) :
    carry net reserved L e = L.assign e.1 ip := by
  have hnone : ¬L.ipOwner.contains ip = true := by rw [Dict.contains, hfree]; decide
  rw [carry, hp]
  dsimp only
  rw [if_neg (not_not.2 hu.1), if_neg hu.2, if_neg hnone]

/-- An entry is carried over if its address is usable and free, and otherwise ignored. -/
theorem carry_cases (net : Network) (reserved : List ℕ) (L : Ledger) (e : String × String) :
    (∃ ip, Ip.parse e.2 = .ok ip ∧ Usable net reserved ip ∧ L.ipOwner.get? ip = none ∧
      carry net reserved L e = L.assign e.1 ip) ∨
    ((∀ ip, Ip.parse e.2 = .ok ip → Usable net reserved ip → L.ipOwner.get? ip ≠ none) ∧
      carry net reserved L e = L) := by
  by_cases h : ∃ ip, Ip.parse e.2 = .ok ip ∧ Usable net reserved ip ∧ L.ipOwner.get? ip = none
  · obtain ⟨ip, hp, hu, hfree⟩ := h
    exact .inl ⟨ip, hp, hu, hfree, carry_of_usable hp hu hfree⟩
  · have hnone : ∀ ip, Ip.parse e.2 = .ok ip → Usable net reserved ip →
        L.ipOwner.get? ip ≠ none := fun ip hp hu hfree => h ⟨ip, hp, hu, hfree⟩
    exact .inr ⟨hnone, carry_of_not_usable hnone⟩

/-- A usable address belongs to the first owner it is reserved for. -/
theorem get?_foldl_carry {entries : List (String × String)} {ip : ℕ}
    (hu : Usable net reserved ip) :
    (entries.foldl (carry net reserved) L).ipOwner.get? ip =
      (L.ipOwner.get? ip).or (holder entries ip) := by
  induction entries generalizing L with
  | nil => simp [holder]
  | cons e entries ih =>
    rw [List.foldl_cons, ih, holder_cons]
    rcases carry_cases net reserved L e with ⟨ip', hp, -, hfree, heq⟩ | ⟨hnone, heq⟩ <;> rw [heq]
    · rw [Ledger.assign_ipOwner, Dict.get?_set, hp]
      by_cases hip : ip = ip'
      · subst hip
        simp [hfree]
      · simp [hip, Ne.symm hip]
    · split
      · rename_i hp
        obtain ⟨o, ho⟩ := Option.ne_none_iff_exists'.1 (hnone ip hp hu)
        simp [ho]
      · rfl

/-- An address that is not usable has no owner. -/
theorem get?_foldl_carry_of_not_usable {entries : List (String × String)} {ip : ℕ}
    (hu : ¬Usable net reserved ip) :
    (entries.foldl (carry net reserved) L).ipOwner.get? ip = L.ipOwner.get? ip := by
  induction entries generalizing L with
  | nil => rfl
  | cons e entries ih =>
    rw [List.foldl_cons, ih]
    rcases carry_cases net reserved L e with ⟨ip', -, hu', -, heq⟩ | ⟨-, heq⟩ <;> rw [heq]
    rw [Ledger.assign_ipOwner, Dict.get?_set_of_ne]
    rintro rfl
    exact hu hu'

/-- The two halves of a ledger say the same. -/
structure Linked (net : Network) (reserved : List ℕ) (L : Ledger) : Prop where
  usable : ∀ ip k, L.ipOwner.get? ip = some k → Usable net reserved ip
  get?_iff : ∀ k t, L.sticky.get? k = some t ↔
    ∃ ip, t = Ip.text ip ∧ L.ipOwner.get? ip = some k

theorem Linked.assign (h : Linked net reserved L) {name : String} {ip : ℕ}
    (hname : name ∉ L.sticky.keys) (hu : Usable net reserved ip)
    (hfree : L.ipOwner.get? ip = none) : Linked net reserved (L.assign name ip) := by
  constructor
  · intro ip' k hk
    rw [Ledger.assign_ipOwner, Dict.get?_set] at hk
    split at hk
    · rename_i heq
      exact heq ▸ hu
    · exact h.usable ip' k hk
  · intro k t
    rw [Ledger.assign_sticky, Ledger.assign_ipOwner, Dict.get?_set]
    simp only [Dict.get?_set]
    by_cases hk : k = name
    · subst hk
      rw [if_pos rfl]
      constructor
      · intro ht
        exact ⟨ip, (Option.some.inj ht).symm, if_pos rfl⟩
      · rintro ⟨ip', rfl, howner⟩
        split at howner
        · rename_i heq
          rw [heq]
        · have hsticky := (h.get?_iff k _).2 ⟨ip', rfl, howner⟩
          exact absurd (Dict.mem_keys_iff.2 ⟨_, hsticky⟩) hname
    · rw [if_neg hk, h.get?_iff]
      refine exists_congr fun ip' => and_congr_right fun _ => ?_
      by_cases hip : ip' = ip
      · subst hip
        simp [hfree, Ne.symm hk]
      · rw [if_neg hip]

theorem Linked.foldl_carry {entries : List (String × String)} (h : Linked net reserved L)
    (hnodup : (entries.map Prod.fst).Nodup) (hnew : ∀ e ∈ entries, e.1 ∉ L.sticky.keys) :
    Linked net reserved (entries.foldl (carry net reserved) L) := by
  induction entries generalizing L with
  | nil => exact h
  | cons e entries ih =>
    rw [List.map_cons, List.nodup_cons] at hnodup
    have hnew' : ∀ e' ∈ entries, e'.1 ∉ L.sticky.keys := fun e' he' =>
      hnew e' (List.mem_cons_of_mem _ he')
    rw [List.foldl_cons]
    rcases carry_cases net reserved L e with ⟨ip, -, hu, hfree, heq⟩ | ⟨-, heq⟩ <;> rw [heq]
    · refine ih (h.assign (hnew e List.mem_cons_self) hu hfree) hnodup.2 fun e' he' hmem => ?_
      rw [Ledger.assign_sticky, Dict.mem_keys_set] at hmem
      rcases hmem with hname | hmem
      · exact hnodup.1 (List.mem_map.2 ⟨e', he', hname⟩)
      · exact hnew' e' he' hmem
    · exact ih h hnodup.2 hnew'

theorem linked_empty : Linked net reserved .empty where
  usable ip k h := by simp [Ledger.empty] at h
  get?_iff k t := by simp [Ledger.empty]

/-- What is carried over is linked. -/
theorem linked_carried : Linked net reserved (carried net reserved reservations) :=
  linked_empty.foldl_carry reservations.nodup_keys fun _ _ => by simp [Ledger.empty]

theorem get?_carried {ip : ℕ} {k : String} :
    (carried net reserved reservations).ipOwner.get? ip = some k ↔
      Usable net reserved ip ∧ holder reservations.items ip = some k := by
  by_cases hu : Usable net reserved ip
  · rw [carried, get?_foldl_carry hu]
    simp [Ledger.empty, hu]
  · rw [carried, get?_foldl_carry_of_not_usable hu]
    simp [Ledger.empty, hu]

end Carried

/-! ## The claims -/

section Claims

variable {net : Network} {reserved : List ℕ} {L L' : Ledger} {nodes : List (String × VDNode)}
  {cs : List (String × ℕ)} {seen : Dict ℕ String}

/-- The devices with an address of their own. -/
def explicitNodes (nodes : List (String × VDNode)) : List (String × VDNode) :=
  nodes.filter fun e => e.2.mgmtIpv4Explicit

theorem explicitNodes_cons (e : String × VDNode) : explicitNodes (e :: nodes) =
    if e.2.mgmtIpv4Explicit then e :: explicitNodes nodes else explicitNodes nodes :=
  List.filter_cons

/-- The addresses that devices claim, in order. -/
def Claims (nodes : List (String × VDNode)) (cs : List (String × ℕ)) : Prop :=
  List.Forall₂ (fun (e : String × VDNode) (c : String × ℕ) =>
    c.1 = e.1 ∧ Ip.parse e.2.mgmtIpv4 = .ok c.2) (explicitNodes nodes) cs

/-- The ledger after all claims. -/
def afterClaims (L : Ledger) (cs : List (String × ℕ)) : Ledger :=
  cs.foldl (fun L c => claim L c.1 c.2) L

theorem explicitIp_eq_ok {name text : String} {ip : ℕ} :
    explicitIp net reserved seen name text = .ok ip ↔
      Ip.parse text = .ok ip ∧ Usable net reserved ip ∧ seen.get? ip = none := by
  rw [explicitIp]
  cases hp : Ip.parse text with
  | error e => simp
  | ok ip' =>
    dsimp only
    constructor
    · intro h
      split_ifs at h with hnet hres
      cases hs : seen.get? ip' with
      | some other =>
        rw [hs] at h
        cases h
      | none =>
        rw [hs] at h
        obtain rfl := Except.ok.inj h
        exact ⟨rfl, ⟨hnet, hres⟩, hs⟩
    · rintro ⟨heq, ⟨hnet, hres⟩, hs⟩
      obtain rfl := Except.ok.inj heq
      rw [if_neg (not_not.2 hnet), if_neg hres, hs]

/-- All claims are granted just if the addresses are usable, and no two are the same. -/
theorem claimAll_eq_ok : claimAll net reserved L seen nodes = .ok L' ↔ ∃ cs, Claims nodes cs ∧
    (∀ c ∈ cs, Usable net reserved c.2 ∧ seen.get? c.2 = none) ∧ (cs.map Prod.snd).Nodup ∧
      L' = afterClaims L cs := by
  induction nodes generalizing L seen with
  | nil =>
    constructor
    · intro h
      exact ⟨[], .nil, by simp, List.nodup_nil, (Except.ok.inj h).symm⟩
    · rintro ⟨cs, hcs, -, -, rfl⟩
      cases hcs
      rfl
  | cons e nodes ih =>
    obtain ⟨name, node⟩ := e
    rw [claimAll]
    -- Only a device with an address of its own claims one.
    by_cases hx : node.mgmtIpv4Explicit = true
    · rw [if_neg (not_not.2 hx), ExceptRules.bind_eq_ok]
      simp only [explicitIp_eq_ok, ih]
      constructor
      · rintro ⟨ip, ⟨hp, hu, hs⟩, cs, hcs, hall, hnodup, rfl⟩
        refine ⟨(name, ip) :: cs, ?_, ?_, ?_, rfl⟩
        · rw [Claims, explicitNodes_cons, if_pos hx]
          exact .cons ⟨rfl, hp⟩ hcs
        · intro c hc
          -- A later claim is not of the first address.
          rcases List.mem_cons.1 hc with rfl | hc
          · exact ⟨hu, hs⟩
          · obtain ⟨hu', hs'⟩ := hall c hc
            rw [Dict.get?_set] at hs'
            split at hs'
            · cases hs'
            · exact ⟨hu', hs'⟩
        · refine List.nodup_cons.2 ⟨fun hmem => ?_, hnodup⟩
          obtain ⟨c, hc, heq⟩ := List.mem_map.1 hmem
          have hs' := (hall c hc).2
          rw [heq] at hs'
          simp at hs'
      · rintro ⟨cs, hcs, hall, hnodup, rfl⟩
        rw [Claims, explicitNodes_cons, if_pos hx] at hcs
        obtain ⟨⟨_, ip⟩, cs, ⟨rfl, hp⟩, hrest, rfl⟩ := List.forall₂_cons_left_iff.1 hcs
        obtain ⟨hu, hs⟩ := hall _ List.mem_cons_self
        rw [List.map_cons, List.nodup_cons] at hnodup
        refine ⟨ip, ⟨hp, hu, hs⟩, cs, hrest, fun c hc => ?_, hnodup.2, rfl⟩
        obtain ⟨hu', hs'⟩ := hall c (List.mem_cons_of_mem _ hc)
        refine ⟨hu', ?_⟩
        rw [Dict.get?_set_of_ne _ _ fun heq => hnodup.1 (List.mem_map.2 ⟨c, hc, heq⟩)]
        exact hs'
    · have hclaims : ∀ cs, Claims ((name, node) :: nodes) cs ↔ Claims nodes cs := fun cs => by
        rw [Claims, explicitNodes_cons, if_neg hx]
        rfl
      rw [if_pos hx, ih]
      simp only [hclaims]

@[simp] theorem claim_ipOwner {name : String} {ip : ℕ} :
    (claim L name ip).ipOwner = L.ipOwner.set ip name := by
  rw [claim, Ledger.assign_ipOwner]
  cases L.ipOwner.get? ip with
  | none => rfl
  | some o =>
    dsimp only
    split_ifs <;> rfl

/-- A claim writes its address down, and takes the owner of before off the ledger. -/
theorem get?_claim_sticky {name k : String} {ip : ℕ} : (claim L name ip).sticky.get? k =
    if k = name then some (Ip.text ip)
    else if k ≠ "" ∧ L.ipOwner.get? ip = some k then none else L.sticky.get? k := by
  rw [claim, Ledger.assign_sticky, Dict.get?_set]
  by_cases hk : k = name
  · rw [if_pos hk, if_pos hk]
  · rw [if_neg hk, if_neg hk]
    cases L.ipOwner.get? ip with
    | none => simp
    | some o =>
      simp only [Option.some.injEq]
      by_cases ho : o ≠ "" ∧ o ≠ name
      · rw [if_pos ho, Dict.get?_erase]
        by_cases hko : k = o
        · subst hko
          rw [if_pos rfl, if_pos ⟨ho.1, rfl⟩]
        · rw [if_neg hko, if_neg fun h => hko h.2.symm]
      · rw [if_neg ho, if_neg]
        rintro ⟨hk0, rfl⟩
        exact ho ⟨hk0, hk⟩

theorem ipOwner_afterClaims_of_notMem {ip : ℕ} (h : ip ∉ cs.map Prod.snd) :
    (afterClaims L cs).ipOwner.get? ip = L.ipOwner.get? ip := by
  induction cs generalizing L with
  | nil => rfl
  | cons c cs ih =>
    rw [List.map_cons, List.mem_cons, not_or] at h
    show (afterClaims (claim L c.1 c.2) cs).ipOwner.get? ip = _
    rw [ih h.2, claim_ipOwner, Dict.get?_set_of_ne _ _ h.1]

/-- An address that is claimed belongs to the device that claims it. -/
theorem ipOwner_afterClaims_of_mem {c : String × ℕ} (hnodup : (cs.map Prod.snd).Nodup)
    (h : c ∈ cs) : (afterClaims L cs).ipOwner.get? c.2 = some c.1 := by
  induction cs generalizing L with
  | nil => exact absurd h (by simp)
  | cons c' cs ih =>
    rw [List.map_cons, List.nodup_cons] at hnodup
    show (afterClaims (claim L c'.1 c'.2) cs).ipOwner.get? c.2 = _
    rcases List.mem_cons.1 h with rfl | h
    · rw [ipOwner_afterClaims_of_notMem hnodup.1, claim_ipOwner, Dict.get?_set_self]
    · exact ih hnodup.2 h

/-- A device that claims nothing is evicted just if its address is claimed, and it has a name. -/
theorem sticky_afterClaims_of_notMem {k : String} (hnodup : (cs.map Prod.snd).Nodup)
    (h : k ∉ cs.map Prod.fst) : (afterClaims L cs).sticky.get? k =
      if k ≠ "" ∧ ∃ c ∈ cs, L.ipOwner.get? c.2 = some k then none else L.sticky.get? k := by
  induction cs generalizing L with
  | nil => simp [afterClaims]
  | cons c cs ih =>
    rw [List.map_cons, List.nodup_cons] at hnodup
    rw [List.map_cons, List.mem_cons, not_or] at h
    have hothers : ∀ c' ∈ cs, (claim L c.1 c.2).ipOwner.get? c'.2 = L.ipOwner.get? c'.2 := by
      intro c' hc'
      rw [claim_ipOwner, Dict.get?_set_of_ne]
      exact fun heq => hnodup.1 (List.mem_map.2 ⟨c', hc', heq⟩)
    have hiff : (∃ c' ∈ cs, (claim L c.1 c.2).ipOwner.get? c'.2 = some k) ↔
        ∃ c' ∈ cs, L.ipOwner.get? c'.2 = some k :=
      exists_congr fun c' => and_congr_right fun hc' => by rw [hothers c' hc']
    show (afterClaims (claim L c.1 c.2) cs).sticky.get? k = _
    rw [ih hnodup.2 h.2, get?_claim_sticky, if_neg h.1]
    simp only [hiff, List.mem_cons, exists_eq_or_imp]
    by_cases hk : k = ""
    · simp [hk]
    · by_cases hc : L.ipOwner.get? c.2 = some k <;> by_cases hcs : ∃ c' ∈ cs, L.ipOwner.get? c'.2 = some k <;>
        simp [hk, hc, hcs]

/-- A device that claims an address has it written down, unless a later claim is for the address
    that it had before. -/
theorem sticky_afterClaims_of_mem {before after : List (String × ℕ)} {c : String × ℕ}
    (hnames : (cs.map Prod.fst).Nodup) (hnodup : (cs.map Prod.snd).Nodup)
    (h : cs = before ++ c :: after) : (afterClaims L cs).sticky.get? c.1 =
      if c.1 ≠ "" ∧ ∃ d ∈ after, L.ipOwner.get? d.2 = some c.1 then none
      else some (Ip.text c.2) := by
  subst h
  rw [List.map_append, List.map_cons] at hnames hnodup
  have hname : c.1 ∉ after.map Prod.fst := (List.nodup_cons.1 (List.nodup_append.1 hnames).2.1).1
  have hafter := (List.nodup_cons.1 (List.nodup_append.1 hnodup).2.1)
  have hothers : ∀ d ∈ after, (claim (afterClaims L before) c.1 c.2).ipOwner.get? d.2 =
      L.ipOwner.get? d.2 := by
    intro d hd
    rw [claim_ipOwner, Dict.get?_set_of_ne, ipOwner_afterClaims_of_notMem]
    · intro hmem
      exact (List.nodup_append.1 hnodup).2.2 _ hmem d.2
        (List.mem_cons_of_mem _ (List.mem_map_of_mem hd)) rfl
    · exact fun heq => hafter.1 (List.mem_map.2 ⟨d, hd, heq⟩)
  have hiff : (∃ d ∈ after, (claim (afterClaims L before) c.1 c.2).ipOwner.get? d.2 = some c.1) ↔
      ∃ d ∈ after, L.ipOwner.get? d.2 = some c.1 :=
    exists_congr fun d => and_congr_right fun hd => by rw [hothers d hd]
  have hsplit : afterClaims L (before ++ c :: after) =
      afterClaims (claim (afterClaims L before) c.1 c.2) after := List.foldl_append
  rw [hsplit, sticky_afterClaims_of_notMem hafter.2 hname, get?_claim_sticky, if_pos rfl]
  simp only [hiff]

end Claims

/-! ## The rest -/

section Settle

variable {net : Network} {reserved : List ℕ} {L L' : Ledger} {names : List String}
  {given : List (String × String)}

theorem ownIp_eq_some {name : String} {ip : ℕ} : ownIp L name = some ip ↔
    ip < 2 ^ 32 ∧ L.sticky.get? name = some (Ip.text ip) ∧ L.ipOwner.get? ip = some name := by
  rw [ownIp]
  cases hs : L.sticky.get? name with
  | none => simp
  | some previous =>
    dsimp only
    constructor
    · intro h
      split_ifs at h with hempty
      cases hp : Ip.parse previous with
      | error _ =>
        rw [hp] at h
        cases h
      | ok ip' =>
        rw [hp] at h
        dsimp only at h
        split_ifs at h with howner
        obtain rfl := Option.some.inj h
        obtain ⟨hlt, htext⟩ := Ip.text_of_parse hp
        exact ⟨hlt, congrArg some htext.symm, howner⟩
    · rintro ⟨hlt, heq, howner⟩
      obtain rfl := Option.some.inj heq
      rw [if_neg (Ip.text_ne_empty ip), Ip.parse_text hlt]
      exact if_pos howner

theorem freeIp_eq_some {ip : ℕ} (h : freeIp net reserved L = some ip) :
    ip ∈ net.hosts ∧ ip ∉ reserved ∧ L.ipOwner.get? ip = none := by
  have hfree := List.find?_some h
  refine ⟨List.mem_of_find?_eq_some h, ?_, ?_⟩
  · intro hmem
    simp [hmem] at hfree
  · rw [Dict.get?_eq_none_iff]
    intro hmem
    simp [Dict.contains_iff.2 hmem] at hfree

theorem freeIp_eq_none : freeIp net reserved L = none ↔
    ∀ ip ∈ net.hosts, ip ∈ reserved ∨ ip ∈ L.ipOwner.keys := by
  rw [freeIp, List.find?_eq_none]
  refine forall₂_congr fun ip _ => ?_
  rw [← Dict.contains_iff]
  cases L.ipOwner.contains ip <;> simp

/-- A device settles on its own address, or on one that nobody has. -/
theorem settle_eq_ok {name s : String} (h : settle net reserved L name = .ok (s, L')) :
    ∃ ip, s = Ip.text ip ∧
      ((ownIp L name = some ip ∧
          L' = { L with sticky := L.sticky.set name (Ip.text ip) }) ∨
        (ip ∈ net.hosts ∧ ip ∉ reserved ∧ L.ipOwner.get? ip = none ∧ ownIp L name = none ∧
          L' = L.assign name ip)) := by
  rw [settle] at h
  cases ho : ownIp L name with
  | some ip =>
    rw [ho] at h
    obtain ⟨rfl, rfl⟩ := Prod.mk.inj (Except.ok.inj h)
    exact ⟨ip, rfl, .inl ⟨rfl, rfl⟩⟩
  | none =>
    rw [ho] at h
    dsimp only at h
    cases hf : freeIp net reserved L with
    | none =>
      rw [hf] at h
      cases h
    | some ip =>
      rw [hf] at h
      obtain ⟨rfl, rfl⟩ := Prod.mk.inj (Except.ok.inj h)
      obtain ⟨hhost, hres, hfree⟩ := freeIp_eq_some hf
      exact ⟨ip, rfl, .inr ⟨hhost, hres, hfree, rfl, rfl⟩⟩

/-- What has become of the ledger when the devices have settled. -/
structure Settled (net : Network) (reserved : List ℕ) (L : Ledger) (names : List String)
    (given : List (String × String)) (L' : Ledger) : Prop where
  fst_given : given.map Prod.fst = names
  /-- No owner loses an address. -/
  extends_owner : ∀ ip k, L.ipOwner.get? ip = some k → L'.ipOwner.get? ip = some k
  /-- Only devices that settle get one. -/
  new_owner : ∀ ip k, L'.ipOwner.get? ip = some k →
    L.ipOwner.get? ip = some k ∨ (k, Ip.text ip) ∈ given
  /-- Nothing else that is written down changes. -/
  others : ∀ k, k ∉ names → L'.sticky.get? k = L.sticky.get? k
  /-- What a device settles on is its own, or was free. -/
  settled : ∀ n s, (n, s) ∈ given → ∃ ip, s = Ip.text ip ∧ L'.sticky.get? n = some s ∧
    L'.ipOwner.get? ip = some n ∧
      (ownIp L n = some ip ∨
        (ip ∈ net.hosts ∧ ip ∉ reserved ∧ L.ipOwner.get? ip = none ∧ ownIp L n = none))

theorem settled_of_settleAll (hnodup : names.Nodup)
    (h : settleAll net reserved L names = .ok (given, L')) :
    Settled net reserved L names given L' := by
  induction names generalizing L given with
  | nil =>
    obtain ⟨rfl, rfl⟩ := Prod.mk.inj (Except.ok.inj h)
    exact ⟨rfl, fun _ _ => id, fun _ _ => .inl, fun _ _ => rfl, fun _ _ h => by cases h⟩
  | cons name names ih =>
    simp only [settleAll, ExceptRules.bind_eq_ok, ExceptRules.pure_eq_ok] at h
    obtain ⟨⟨s, L₁⟩, hfirst, ⟨rest, L₂⟩, hrest, heq⟩ := h
    obtain ⟨rfl, rfl⟩ := Prod.mk.inj heq
    rw [List.nodup_cons] at hnodup
    have hS := ih hnodup.2 hrest
    obtain ⟨ip, rfl, hcase⟩ := settle_eq_ok hfirst
    -- The first device changes its own entry only, and takes a free address at most.
    have hsticky : ∀ k, L₁.sticky.get? k =
        if k = name then some (Ip.text ip) else L.sticky.get? k := by
      rcases hcase with ⟨-, rfl⟩ | ⟨-, -, -, -, rfl⟩ <;> exact fun k => Dict.get?_set ..
    have hext : ∀ ip' k, L.ipOwner.get? ip' = some k → L₁.ipOwner.get? ip' = some k := by
      rcases hcase with ⟨-, rfl⟩ | ⟨-, -, hfree, -, rfl⟩
      · exact fun _ _ => id
      · intro ip' k hk
        rw [Ledger.assign_ipOwner, Dict.get?_set_of_ne]
        · exact hk
        · rintro rfl
          rw [hfree] at hk
          cases hk
    have hnew : ∀ ip' k, L₁.ipOwner.get? ip' = some k →
        L.ipOwner.get? ip' = some k ∨ k = name ∧ ip' = ip := by
      rcases hcase with ⟨-, rfl⟩ | ⟨-, -, -, -, rfl⟩
      · exact fun _ _ => .inl
      · intro ip' k hk
        rw [Ledger.assign_ipOwner, Dict.get?_set] at hk
        split at hk
        · rename_i hip
          exact .inr ⟨(Option.some.inj hk).symm, hip⟩
        · exact .inl hk
    have howner : L₁.ipOwner.get? ip = some name := by
      rcases hcase with ⟨hown, rfl⟩ | ⟨-, -, -, -, rfl⟩
      · exact (ownIp_eq_some.1 hown).2.2
      · exact Dict.get?_set_self _ _ _
    refine ⟨congrArg (name :: ·) hS.fst_given, fun ip' k hk => hS.extends_owner _ _ (hext _ _ hk),
      fun ip' k hk => ?_, fun k hk => ?_, fun n s hns => ?_⟩
    · rcases hS.new_owner ip' k hk with hk | hk
      · rcases hnew ip' k hk with hk | ⟨rfl, rfl⟩
        · exact .inl hk
        · exact .inr List.mem_cons_self
      · exact .inr (List.mem_cons_of_mem _ hk)
    · rw [List.mem_cons, not_or] at hk
      rw [hS.others k hk.2, hsticky, if_neg hk.1]
    · rcases List.mem_cons.1 hns with heq | hmem
      · obtain ⟨rfl, rfl⟩ := Prod.mk.inj heq
        refine ⟨ip, rfl, ?_, hS.extends_owner _ _ howner, ?_⟩
        · rw [hS.others _ hnodup.1, hsticky, if_pos rfl]
        · exact hcase.imp And.left fun h => ⟨h.1, h.2.1, h.2.2.1, h.2.2.2.1⟩
      · have hne : n ≠ name := by
          rintro rfl
          refine hnodup.1 ?_
          rw [← hS.fst_given]
          exact List.mem_map_of_mem (f := Prod.fst) hmem
        obtain ⟨ip', rfl, hs', ho', hwas⟩ := hS.settled n s hmem
        refine ⟨ip', rfl, hs', ho', hwas.imp ?_ ?_⟩
        · intro hown
          rw [ownIp_eq_some, hsticky, if_neg hne] at hown
          exact ownIp_eq_some.2 ⟨hown.1, hown.2.1,
            (hnew _ _ hown.2.2).resolve_right fun h => hne h.1⟩
        · rintro ⟨hhost, hres, hfree, hown⟩
          refine ⟨hhost, hres, ?_, ?_⟩
          · by_contra hsome
            obtain ⟨k, hk⟩ := Option.ne_none_iff_exists'.1 hsome
            rw [hext _ _ hk] at hfree
            cases hfree
          · by_contra hsome
            obtain ⟨ip₀, hip₀⟩ := Option.ne_none_iff_exists'.1 hsome
            obtain ⟨hlt, hs₀, ho₀⟩ := ownIp_eq_some.1 hip₀
            have hown' := ownIp_eq_some.2 ⟨hlt, by rw [hsticky, if_neg hne]; exact hs₀,
              hext _ _ ho₀⟩
            rw [hown] at hown'
            cases hown'

/-- The hosts that nobody has, in order. -/
def freeIps (net : Network) (reserved : List ℕ) (L : Ledger) : List ℕ :=
  net.hosts.filter fun ip => !(reserved.contains ip || L.ipOwner.contains ip)

theorem freeIp_eq_head? : freeIp net reserved L = (freeIps net reserved L).head? :=
  List.head?_filter.symm

/-- A free host that is given away is free no more. -/
theorem freeIps_assign {name : String} {ip : ℕ} {rest : List ℕ}
    (h : freeIps net reserved L = ip :: rest) : freeIps net reserved (L.assign name ip) = rest := by
  have hsplit : freeIps net reserved (L.assign name ip) =
      (freeIps net reserved L).filter fun ip' => ip' ≠ ip := by
    rw [freeIps, freeIps, List.filter_filter]
    refine List.filter_congr fun ip' _ => ?_
    have hiff : (L.assign name ip).ipOwner.contains ip' = (L.ipOwner.contains ip' || ip' == ip) := by
      rw [Bool.eq_iff_iff, Bool.or_eq_true, Dict.contains_iff, Dict.contains_iff,
        Ledger.assign_ipOwner, Dict.mem_keys_set, beq_iff_eq, or_comm]
    rw [hiff]
    by_cases heq : ip' = ip
    · simp [heq]
    · simp [heq, beq_eq_false_iff_ne.2 heq]
  have hnodup : (ip :: rest).Nodup := h ▸ Network.nodup_hosts.filter _
  rw [hsplit, h, List.filter_cons_of_neg (by simp)]
  exact List.filter_eq_self.2 fun ip' hip' => by
    simpa using fun heq : ip' = ip => (List.nodup_cons.1 hnodup).1 (heq ▸ hip')

/-- The devices that have no address of their own take the free hosts in order. -/
theorem fresh_of_settleAll (hnodup : names.Nodup)
    (h : settleAll net reserved L names = .ok (given, L')) {i : ℕ} {n : String}
    (hi : (names.filter fun m => (ownIp L m).isNone)[i]? = some n) :
    ∃ ip, (freeIps net reserved L)[i]? = some ip ∧ (n, Ip.text ip) ∈ given := by
  induction names generalizing L given i with
  | nil => cases hi
  | cons name names ih =>
    simp only [settleAll, ExceptRules.bind_eq_ok, ExceptRules.pure_eq_ok] at h
    obtain ⟨⟨s, L₁⟩, hfirst, ⟨rest, L₂⟩, hrest, heq⟩ := h
    obtain ⟨rfl, rfl⟩ := Prod.mk.inj heq
    rw [List.nodup_cons] at hnodup
    -- The others have after the first device what they had before.
    have hothers : (∀ m ∈ names, ownIp L₁ m = ownIp L m) →
        (names.filter fun m => (ownIp L₁ m).isNone) = names.filter fun m => (ownIp L m).isNone :=
      fun hown => List.filter_congr fun m hm => by rw [hown m hm]
    rw [settle] at hfirst
    cases ho : ownIp L name with
    | some ip =>
      rw [ho] at hfirst
      obtain ⟨-, rfl⟩ := Prod.mk.inj (Except.ok.inj hfirst)
      rw [List.filter_cons_of_neg (by simp [ho]), ← hothers] at hi
      · obtain ⟨ip', hip', hmem⟩ := ih hnodup.2 hrest hi
        exact ⟨ip', hip', List.mem_cons_of_mem _ hmem⟩
      · intro m hm
        have hne : m ≠ name := fun h => hnodup.1 (h ▸ hm)
        rw [ownIp, ownIp, Dict.get?_set_of_ne _ _ hne]
    | none =>
      rw [ho] at hfirst
      dsimp only at hfirst
      cases hf : freeIps net reserved L with
      | nil =>
        rw [freeIp_eq_head?, hf] at hfirst
        cases hfirst
      | cons ip free =>
        rw [freeIp_eq_head?, hf] at hfirst
        obtain ⟨rfl, rfl⟩ := Prod.mk.inj (Except.ok.inj hfirst)
        rw [List.filter_cons_of_pos (by simp [ho])] at hi
        cases i with
        | zero =>
          obtain rfl := Option.some.inj hi
          exact ⟨ip, rfl, List.mem_cons_self⟩
        | succ i =>
          rw [List.getElem?_cons_succ, ← hothers] at hi
          · obtain ⟨ip', hip', hmem⟩ := ih hnodup.2 hrest hi
            rw [freeIps_assign hf] at hip'
            exact ⟨ip', hip', List.mem_cons_of_mem _ hmem⟩
          · intro m hm
            have hne : m ≠ name := fun h => hnodup.1 (h ▸ hm)
            have hfree := (freeIp_eq_some (freeIp_eq_head?.trans (congrArg List.head? hf))).2.2
            refine Option.ext fun ip' => ?_
            rw [ownIp_eq_some, ownIp_eq_some, Ledger.assign_sticky, Ledger.assign_ipOwner,
              Dict.get?_set_of_ne _ _ hne]
            refine and_congr_right fun _ => and_congr_right fun _ => ?_
            by_cases hip : ip' = ip
            · -- The host that is given away was nobody's.
              subst hip
              rw [Dict.get?_set_self, hfree]
              simp [Ne.symm hne]
            · rw [Dict.get?_set_of_ne _ _ hip]

/-- Devices whose own addresses are written down settle on them, and nothing changes. -/
theorem settleAll_of_own (h : ∀ n ∈ names, ∃ ip, ownIp L n = some ip) :
    ∃ given, settleAll net reserved L names = .ok (given, L) ∧ given.map Prod.fst = names ∧
      ∀ n s, (n, s) ∈ given → L.sticky.get? n = some s := by
  induction names with
  | nil => exact ⟨[], rfl, rfl, by simp⟩
  | cons name names ih =>
    obtain ⟨given, hgiven, hnames, hall⟩ := ih fun n hn => h n (List.mem_cons_of_mem _ hn)
    obtain ⟨ip, hip⟩ := h name List.mem_cons_self
    have hs := (ownIp_eq_some.1 hip).2.1
    have hsame : L.sticky.set name (Ip.text ip) = L.sticky := Dict.set_of_get? hs
    refine ⟨(name, Ip.text ip) :: given, ?_, congrArg (name :: ·) hnames, ?_⟩
    · rw [settleAll, settle, hip]
      dsimp only
      rw [hsame]
      exact (congrArg (Except.map _) hgiven).trans rfl
    · intro n s hns
      rcases List.mem_cons.1 hns with heq | hns
      · obtain ⟨rfl, rfl⟩ := Prod.mk.inj heq
        exact hs
      · exact hall n s hns

end Settle

end Dnlab.Config
