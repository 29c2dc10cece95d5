import Dnlab.Gui.RealnetBgp
import Mathlib.Tactic.Tauto

/-!
# Free AS numbers and addresses

With BGP, a request that gives no AS number or no address gets the first one of
the pool that no record uses. Nothing keeps the route reflector's own number and
address out of the pools: they are allocated like any other. And a pool given by
a range of addresses of version 6 is walked by number, where a number below
`2 ^ 32` is taken for an address of version 4. Both happen just if such a value
is the first one of the pool that is not used (`conflictFree_iff`).
-/

namespace Dnlab.Gui.RealnetBgp

open ExceptRules (bind_eq_ok pure_eq_ok)
open Ip (AnyAddress AnyNetwork)

theorem require_eq_ok {ok : Prop} [Decidable ok] {message : String} {u : Unit} :
    require ok message = .ok u ↔ ok := by
  rw [require]
  split
  · exact ⟨fun _ => ‹ok›, fun _ => rfl⟩
  · exact ⟨nofun, fun h => absurd h ‹¬ok›⟩

section Spec

variable (cfg : RealNetBgpConfig) (stored : List StoredTopology) (currentPath : String)
  (extra : Mapping)

/-! ## What is to be allocated -/

/-- The AS numbers of the pool. -/
def InAsPool (asn : ℤ) : Prop :=
  ∃ r, parseAsPool cfg.routerAsPool = .ok r ∧ r.1 ≤ asn ∧ asn ≤ r.2

/-- The addresses of the pool: the hosts of a network, or a range of addresses of one version. -/
def InIpPool (ip : AnyAddress) : Prop :=
  let raw := Text.stripSpaces cfg.routerIpPool
  if raw.toList.contains '/' then ∃ net, AnyNetwork.parse raw = .ok net ∧ ip ∈ net.hosts
  else ∃ r, parseIpRange raw = .ok r ∧ ip.version = r.1.version ∧ r.1.number ≤ ip.number ∧
    ip.number ≤ r.2.number

/-- The address of the route reflector. -/
def rrAddress : Option AnyAddress := (AnyAddress.parse cfg.rrIp).toOption

/-- Another lab has a real network with BGP whose record is so. -/
def OtherLab (p : Mapping → Prop) : Prop :=
  ∃ t ∈ stored, t.path ≠ currentPath ∧ ∃ n ∈ t.realnets, (n.extra.get "bgp").truthy ∧ p n.extra

/-- An AS number that may be allocated. -/
def FreeAs (asn : ℤ) : Prop :=
  InAsPool cfg asn ∧ ¬OtherLab stored currentPath (recordAs · = some asn) ∧ asn ≠ cfg.rrAs

/-- An address that may be allocated. -/
def FreeIp (ip : AnyAddress) : Prop :=
  InIpPool cfg ip ∧ ¬OtherLab stored currentPath (recordIp · = some ip) ∧ rrAddress cfg ≠ some ip

/-- The request leaves the AS number open. -/
def AutoAs : Prop := (extra.get "bgp").truthy ∧ ¬(extra.get "bgp_as").truthy

/-- The request leaves the address open. -/
def AutoIp : Prop :=
  (extra.get "bgp").truthy ∧ cfg.routerIpPool ≠ "" ∧ ¬(extra.get "bgp_router_ip").truthy

/-- What is allocated automatically may be allocated, and if there is nothing that may be
    allocated, the request is refused. -/
def ConflictFree : Prop := ∀ fresh,
  (∀ out, allocateForRealnetNode stored currentPath extra cfg fresh = .ok out →
    (AutoAs extra → ∃ asn, out.get "bgp_as" = .int asn ∧ FreeAs cfg stored currentPath asn) ∧
    (AutoIp cfg extra → ∃ ip, chooseIp cfg (usedIp stored currentPath extra) extra = .ok ip ∧
      out.get "bgp_router_ip" = .str ip.text ∧ FreeIp cfg stored currentPath ip)) ∧
  ((AutoAs extra ∧ ¬∃ asn, FreeAs cfg stored currentPath asn) ∨
      (AutoIp cfg extra ∧ ¬∃ ip, FreeIp cfg stored currentPath ip) →
    ∃ e, allocateForRealnetNode stored currentPath extra cfg fresh = .error e)

/-! ## What goes wrong -/

/-- The number of the route reflector is the least one of the pool that is not used. -/
def HitsAs : Prop :=
  InAsPool cfg cfg.rrAs ∧ cfg.rrAs ∉ usedAs stored currentPath extra ∧
    ∀ asn, InAsPool cfg asn → asn < cfg.rrAs → asn ∈ usedAs stored currentPath extra

/-- The first address that is walked to and not used is the route reflector's, or not one of the
    pool. -/
def HitsIp : Prop :=
  ∃ before ip after, parseIpPool cfg.routerIpPool = .ok (before ++ ip :: after) ∧
    (∀ q ∈ before, q.text ∈ usedIp stored currentPath extra) ∧
    ip.text ∉ usedIp stored currentPath extra ∧ (rrAddress cfg = some ip ∨ ¬InIpPool cfg ip)

/-- There is an AS number for the request: a valid one is given, or the pool has one. -/
def AsServed : Prop :=
  if (extra.get "bgp_as").truthy then
    ∃ asn, (extra.get "bgp_as").toInt? = some asn ∧ ∃ r ∈ privateAsRanges, r.1 ≤ asn ∧ asn ≤ r.2
  else ∃ asn, InAsPool cfg asn ∧ asn ∉ usedAs stored currentPath extra

/-- There is an address for the request, if it needs one. -/
def IpServed : Prop :=
  cfg.routerIpPool ≠ "" →
    if (extra.get "bgp_router_ip").truthy then
      ∃ ip, AnyAddress.parse (Text.stripSpaces (extra.get "bgp_router_ip").print) = .ok ip
    else ∃ ips, parseIpPool cfg.routerIpPool = .ok ips ∧
      ∃ ip ∈ ips, ip.text ∉ usedIp stored currentPath extra

/-- The password of the request is valid, if it gives one. -/
def PasswordServed : Prop :=
  (extra.get "bgp_password").truthy →
    validateBgpPassword (extra.get "bgp_password").print "router BGP password" = .ok ()

end Spec

variable {cfg : RealNetBgpConfig} {stored : List StoredTopology} {currentPath fresh : String}
  {extra out : Mapping}

/-! ## The choices -/

theorem mem_asRange {low high asn : ℤ} : asn ∈ asRange low high ↔ low ≤ asn ∧ asn ≤ high := by
  rw [asRange, List.mem_map]
  constructor
  · rintro ⟨n, hn, rfl⟩
    rw [List.mem_range] at hn
    omega
  · intro h
    exact ⟨(asn - low).toNat, by rw [List.mem_range]; omega, by omega⟩

theorem asRange_pairwise (low high : ℤ) : (asRange low high).Pairwise (· < ·) := by
  rw [asRange, List.pairwise_map]
  exact List.pairwise_lt_range.imp fun h => by omega

/-- The first free AS number is the least one of the pool that is not used. -/
theorem firstFreeAs_eq_ok {used : List ℤ} {asn : ℤ} :
    firstFreeAs cfg.routerAsPool used = .ok asn ↔
      InAsPool cfg asn ∧ asn ∉ used ∧ ∀ a, InAsPool cfg a → a < asn → a ∈ used := by
  rw [firstFreeAs, bind_eq_ok]
  constructor
  · rintro ⟨⟨low, high⟩, hpool, h⟩
    dsimp only at h
    split at h
    case h_2 => cases h
    case h_1 found hfind =>
    obtain rfl := pure_eq_ok.1 h
    rw [List.find?_eq_some_iff_append] at hfind
    obtain ⟨hfree, before, after, hsplit, hbefore⟩ := hfind
    have hmem : found ∈ asRange low high := by
      rw [hsplit]
      exact List.mem_append_right _ List.mem_cons_self
    refine ⟨⟨_, hpool, mem_asRange.1 hmem⟩, by simpa using hfree, fun a ⟨r, hr, ha⟩ hlt => ?_⟩
    rw [hpool] at hr
    cases hr
    have ha := mem_asRange.2 ha
    have hsorted := asRange_pairwise low high
    rw [hsplit] at ha hsorted
    rcases List.mem_append.1 ha with hb | hb
    · simpa using hbefore a hb
    · rcases List.mem_cons.1 hb with rfl | hb
      · exact absurd hlt (lt_irrefl _)
      · have := (List.pairwise_cons.1 (List.pairwise_append.1 hsorted).2.1).1 a hb
        omega
  · rintro ⟨⟨⟨low, high⟩, hpool, hmem⟩, hfree, hleast⟩
    refine ⟨_, hpool, ?_⟩
    dsimp only
    split
    case h_2 hnone =>
      rw [List.find?_eq_none] at hnone
      exact absurd (decide_eq_true hfree) (hnone asn (mem_asRange.2 hmem))
    case h_1 found hfind =>
    have hfound := mem_asRange.1 (List.mem_of_find?_eq_some hfind)
    have hfoundFree : found ∉ used := by simpa using List.find?_some hfind
    obtain ⟨-, before, after, hsplit, hbefore⟩ := List.find?_eq_some_iff_append.1 hfind
    refine pure_eq_ok.2 (le_antisymm ?_ (not_lt.1 fun hlt =>
      hfoundFree (hleast found ⟨_, hpool, hfound⟩ hlt)))
    -- what is before the one that was found is used
    have hasn := mem_asRange.2 hmem
    have hsorted := asRange_pairwise low high
    rw [hsplit] at hasn hsorted
    rcases List.mem_append.1 hasn with hb | hb
    · exact absurd (by simpa using hbefore asn hb) hfree
    · rcases List.mem_cons.1 hb with rfl | hb
      · exact le_rfl
      · exact ((List.pairwise_cons.1 (List.pairwise_append.1 hsorted).2.1).1 asn hb).le

theorem firstFreeIp_eq_ok {used : List String} {ip : AnyAddress} :
    firstFreeIp cfg.routerIpPool used = .ok ip ↔
      ∃ before after, parseIpPool cfg.routerIpPool = .ok (before ++ ip :: after) ∧
        (∀ q ∈ before, q.text ∈ used) ∧ ip.text ∉ used := by
  rw [firstFreeIp, bind_eq_ok]
  constructor
  · rintro ⟨ips, hpool, h⟩
    split at h
    case h_2 => cases h
    case h_1 found hfind =>
    obtain rfl := pure_eq_ok.1 h
    obtain ⟨hfree, before, after, rfl, hbefore⟩ := List.find?_eq_some_iff_append.1 hfind
    exact ⟨before, after, hpool, fun q hq => by simpa using hbefore q hq, by simpa using hfree⟩
  · rintro ⟨before, after, hpool, hbefore, hfree⟩
    refine ⟨_, hpool, ?_⟩
    have hfind : (before ++ ip :: after).find? (·.text ∉ used) = some ip :=
      List.find?_eq_some_iff_append.2 ⟨by simpa using hfree, before, after, rfl,
        fun q hq => by simpa using hbefore q hq⟩
    rw [hfind]
    rfl

theorem exists_firstFreeIp {used : List String} :
    (∃ ip, firstFreeIp cfg.routerIpPool used = .ok ip) ↔
      ∃ ips, parseIpPool cfg.routerIpPool = .ok ips ∧ ∃ ip ∈ ips, ip.text ∉ used := by
  constructor
  · rintro ⟨ip, h⟩
    obtain ⟨before, after, hpool, -, hfree⟩ := firstFreeIp_eq_ok.1 h
    exact ⟨_, hpool, ip, List.mem_append_right _ List.mem_cons_self, hfree⟩
  · rintro ⟨ips, hpool, ip, hip, hfree⟩
    rcases hfind : ips.find? (·.text ∉ used) with _ | found
    · rw [List.find?_eq_none] at hfind
      exact absurd (decide_eq_true hfree) (hfind ip hip)
    · exact ⟨found, bind_eq_ok.2 ⟨ips, hpool, by rw [hfind]; rfl⟩⟩

theorem exists_firstFreeAs {used : List ℤ} :
    (∃ asn, firstFreeAs cfg.routerAsPool used = .ok asn) ↔ ∃ asn, InAsPool cfg asn ∧ asn ∉ used := by
  constructor
  · rintro ⟨asn, h⟩
    obtain ⟨hpool, hfree, -⟩ := firstFreeAs_eq_ok.1 h
    exact ⟨asn, hpool, hfree⟩
  · rintro ⟨asn, ⟨⟨low, high⟩, hpool, hmem⟩, hfree⟩
    rcases hfind : (asRange low high).find? (· ∉ used) with _ | found
    · rw [List.find?_eq_none] at hfind
      exact absurd (decide_eq_true hfree) (hfind asn (mem_asRange.2 hmem))
    · refine ⟨found, bind_eq_ok.2 ⟨_, hpool, ?_⟩⟩
      dsimp only
      rw [hfind]
      rfl

theorem exists_chooseAs :
    (∃ asn, chooseAs cfg (usedAs stored currentPath extra) extra = .ok asn) ↔
      AsServed cfg stored currentPath extra := by
  rw [AsServed]
  split
  case isFalse hauto =>
    simp only [chooseAs, if_neg hauto]
    exact exists_firstFreeAs
  case isTrue hgiven =>
    simp only [chooseAs, if_pos hgiven]
    rcases (extra.get "bgp_as").toInt? with _ | asn
    · simp
    · simp only [bind_eq_ok, pure_eq_ok, validatePrivateAs, require_eq_ok, Option.some.injEq,
        exists_const, exists_eq_left']
      exact ⟨fun ⟨_, h, _⟩ => h, fun h => ⟨asn, h, rfl⟩⟩

theorem exists_chooseIp {used : List String} :
    (∃ ip, chooseIp cfg used extra = .ok ip) ↔
      if (extra.get "bgp_router_ip").truthy then
        ∃ ip, AnyAddress.parse (Text.stripSpaces (extra.get "bgp_router_ip").print) = .ok ip
      else ∃ ips, parseIpPool cfg.routerIpPool = .ok ips ∧ ∃ ip ∈ ips, ip.text ∉ used := by
  split
  case isTrue hgiven => simp only [chooseIp, if_pos hgiven]
  case isFalse hauto =>
    simp only [chooseIp, if_neg hauto]
    exact exists_firstFreeIp

theorem exists_choosePassword :
    (∃ out, choosePassword fresh extra = .ok out) ↔ PasswordServed extra := by
  rw [PasswordServed]
  by_cases hgiven : (extra.get "bgp_password").truthy
  · simp only [choosePassword, if_pos hgiven, bind_eq_ok, pure_eq_ok]
    exact ⟨fun ⟨_, _, h, _⟩ _ => h, fun h => ⟨extra, (), h hgiven, rfl⟩⟩
  · simp only [choosePassword, if_neg hgiven]
    exact ⟨fun _ h => absurd h hgiven, fun _ => ⟨_, rfl⟩⟩

/-- The password is all that changes last. -/
theorem get_of_choosePassword (h : choosePassword fresh extra = .ok out) {key : String}
    (hkey : key ≠ "bgp_password") : out.get key = extra.get key := by
  rw [choosePassword] at h
  split at h
  · obtain ⟨_, _, h⟩ := bind_eq_ok.1 h
    rw [pure_eq_ok.1 h]
  · rw [← pure_eq_ok.1 h, Mapping.get_set, if_neg hkey]

/-! ## A request -/

theorem chooseIp_set {used : List String} {asn : ℤ} :
    chooseIp cfg used (extra.set "bgp_as" (.int asn)) = chooseIp cfg used extra := by
  have hget : (extra.set "bgp_as" (.int asn)).get "bgp_router_ip" = extra.get "bgp_router_ip" :=
    (Mapping.get_set _ _ _ _).trans (if_neg (by decide))
  rw [chooseIp, chooseIp, hget]

theorem passwordServed_set {key : String} {v : Value} (hkey : key ≠ "bgp_password") :
    PasswordServed (extra.set key v) ↔ PasswordServed extra := by
  rw [PasswordServed, PasswordServed, Mapping.get_set, if_neg hkey.symm]

theorem as_ne_password : "bgp_as" ≠ "bgp_password" := by decide
theorem routerIp_ne_password : "bgp_router_ip" ≠ "bgp_password" := by decide

/-- What is allocated for a request with BGP. -/
theorem of_allocateForRealnetNode (hbgp : (extra.get "bgp").truthy)
    (h : allocateForRealnetNode stored currentPath extra cfg fresh = .ok out) :
    (∃ asn, chooseAs cfg (usedAs stored currentPath extra) extra = .ok asn ∧
      out.get "bgp_as" = .int asn) ∧
    (cfg.routerIpPool ≠ "" → ∃ ip, chooseIp cfg (usedIp stored currentPath extra) extra = .ok ip ∧
      out.get "bgp_router_ip" = .str ip.text) ∧ PasswordServed extra := by
  rw [allocateForRealnetNode, if_pos hbgp] at h
  obtain ⟨asn, hasn, h⟩ := bind_eq_ok.1 h
  dsimp only at h
  -- Without a pool no router address is chosen.
  split at h
  case isTrue hpool =>
    obtain ⟨ip, hip, h⟩ := bind_eq_ok.1 h
    rw [chooseIp_set] at hip
    refine ⟨⟨asn, hasn, ?_⟩, fun _ => ⟨ip, hip, ?_⟩, ?_⟩
    · rw [get_of_choosePassword h (by decide), Mapping.get_set, if_neg (by decide),
        Mapping.get_set, if_pos rfl]
    · rw [get_of_choosePassword h (by decide), Mapping.get_set, if_pos rfl]
    · exact (passwordServed_set as_ne_password).1 ((passwordServed_set routerIp_ne_password).1
        (exists_choosePassword.1 ⟨_, h⟩))
  case isFalse hpool =>
    refine ⟨⟨asn, hasn, ?_⟩, fun hne => absurd hne hpool, ?_⟩
    · rw [get_of_choosePassword h (by decide), Mapping.get_set, if_pos rfl]
    · exact (passwordServed_set as_ne_password).1 (exists_choosePassword.1 ⟨_, h⟩)

/-- A request with BGP is served if there are a number, an address and a password for it. -/
theorem exists_allocateForRealnetNode (hbgp : (extra.get "bgp").truthy) (fresh : String) :
    (∃ out, allocateForRealnetNode stored currentPath extra cfg fresh = .ok out) ↔
      AsServed cfg stored currentPath extra ∧ IpServed cfg stored currentPath extra ∧
        PasswordServed extra := by
  rw [IpServed]
  constructor
  · rintro ⟨out, h⟩
    obtain ⟨⟨asn, hasn, -⟩, hip, hpassword⟩ := of_allocateForRealnetNode hbgp h
    refine ⟨exists_chooseAs.1 ⟨asn, hasn⟩, fun hpool => ?_, hpassword⟩
    obtain ⟨ip, hip, -⟩ := hip hpool
    exact exists_chooseIp.1 ⟨ip, hip⟩
  · rintro ⟨hasn, hip, hpassword⟩
    obtain ⟨asn, hasn⟩ := exists_chooseAs.2 hasn
    simp only [allocateForRealnetNode, if_pos hbgp, bind_eq_ok, chooseIp_set]
    by_cases hpool : cfg.routerIpPool ≠ ""
    · obtain ⟨ip, hip⟩ := exists_chooseIp.2 (hip hpool)
      obtain ⟨out, hout⟩ := exists_choosePassword.2
        ((passwordServed_set routerIp_ne_password).2 ((passwordServed_set as_ne_password).2 hpassword))
      refine ⟨out, asn, hasn, ?_⟩
      rw [if_pos hpool, bind_eq_ok]
      exact ⟨ip, hip, hout⟩
    · obtain ⟨out, hout⟩ := exists_choosePassword.2 ((passwordServed_set as_ne_password).2 hpassword)
      refine ⟨out, asn, hasn, ?_⟩
      rwa [if_neg hpool]

/-! ## The records of other labs -/

/-- The record of another lab counts, whatever is in it. -/
theorem mem_bgpRecords_of_otherLab {p : Mapping → Prop} (h : OtherLab stored currentPath p) :
    ∃ r ∈ bgpRecords stored currentPath extra, p r := by
  obtain ⟨t, ht, hpath, n, hn, hbgp, hp⟩ := h
  refine ⟨n.extra, List.mem_flatMap.2 ⟨t, ht, List.mem_filter.2
    ⟨List.mem_map_of_mem hn, ?_⟩⟩, hp⟩
  rw [hbgp, decide_eq_false hpath]
  rfl

theorem mem_usedAs_of_otherLab {asn : ℤ}
    (h : OtherLab stored currentPath (recordAs · = some asn)) :
    asn ∈ usedAs stored currentPath extra := by
  obtain ⟨r, hr, hasn⟩ := mem_bgpRecords_of_otherLab h
  exact List.mem_filterMap.2 ⟨r, hr, hasn⟩

theorem mem_usedIp_of_otherLab {ip : AnyAddress}
    (h : OtherLab stored currentPath (recordIp · = some ip)) :
    ip.text ∈ usedIp stored currentPath extra := by
  obtain ⟨r, hr, hip⟩ := mem_bgpRecords_of_otherLab h
  exact List.mem_map_of_mem (List.mem_filterMap.2 ⟨r, hr, hip⟩)

/-- A request that is served when it is the turn of a value that must not be allocated. -/
theorem not_hits_of_conflictFree (h : ConflictFree cfg stored currentPath extra) :
    ¬((AsServed cfg stored currentPath extra ∧ IpServed cfg stored currentPath extra ∧
        PasswordServed extra) ∧
      (AutoAs extra ∧ HitsAs cfg stored currentPath extra ∨
        AutoIp cfg extra ∧ HitsIp cfg stored currentPath extra)) := by
  rintro ⟨hserved, ⟨hauto, hhits⟩ | ⟨hauto, before, ip, after, hpool, hbefore, hfree, hbad⟩⟩
  · obtain ⟨out, hout⟩ := (exists_allocateForRealnetNode hauto.1 "").2 hserved
    obtain ⟨asn, hasn, -, -, hne⟩ := ((h "").1 out hout).1 hauto
    obtain ⟨⟨asn', hasn', hout'⟩, -⟩ := of_allocateForRealnetNode hauto.1 hout
    rw [hasn] at hout'
    cases hout'
    rw [chooseAs, if_neg hauto.2, firstFreeAs_eq_ok.2 hhits] at hasn'
    cases hasn'
    exact hne rfl
  · obtain ⟨out, hout⟩ := (exists_allocateForRealnetNode hauto.1 "").2 hserved
    obtain ⟨ip', hip', -, hin, -, hne⟩ := ((h "").1 out hout).2 hauto
    rw [chooseIp, if_neg hauto.2.2, firstFreeIp_eq_ok.2 ⟨before, after, hpool, hbefore, hfree⟩]
      at hip'
    cases hip'
    exact hbad.elim hne fun hout => hout hin

/-- The automatic allocations are free of conflicts if and only if the request is refused, or it is
    not the turn of the route reflector's AS number or address, or of an address that is not one of
    the pool. -/
theorem conflictFree_iff (cfg : RealNetBgpConfig) (stored : List StoredTopology)
    (currentPath : String) (extra : Mapping) :
    ConflictFree cfg stored currentPath extra ↔
      ¬((AsServed cfg stored currentPath extra ∧ IpServed cfg stored currentPath extra ∧
          PasswordServed extra) ∧
        (AutoAs extra ∧ HitsAs cfg stored currentPath extra ∨
          AutoIp cfg extra ∧ HitsIp cfg stored currentPath extra)) := by
  constructor
  · exact not_hits_of_conflictFree
  · intro h fresh
    have hok : ∀ out, allocateForRealnetNode stored currentPath extra cfg fresh = .ok out →
        (AutoAs extra → ∃ asn, out.get "bgp_as" = .int asn ∧ FreeAs cfg stored currentPath asn) ∧
        (AutoIp cfg extra → ∃ ip, chooseIp cfg (usedIp stored currentPath extra) extra = .ok ip ∧
          out.get "bgp_router_ip" = .str ip.text ∧ FreeIp cfg stored currentPath ip) := by
      intro out hout
      constructor
      · intro hauto
        have hserved := (exists_allocateForRealnetNode hauto.1 fresh).1 ⟨out, hout⟩
        obtain ⟨⟨asn, hasn, hget⟩, -⟩ := of_allocateForRealnetNode hauto.1 hout
        rw [chooseAs, if_neg hauto.2, firstFreeAs_eq_ok] at hasn
        refine ⟨asn, hget, hasn.1, fun hother => hasn.2.1 (mem_usedAs_of_otherLab hother), ?_⟩
        rintro rfl
        exact h ⟨hserved, .inl ⟨hauto, hasn⟩⟩
      · intro hauto
        have hserved := (exists_allocateForRealnetNode hauto.1 fresh).1 ⟨out, hout⟩
        obtain ⟨-, hip, -⟩ := of_allocateForRealnetNode hauto.1 hout
        obtain ⟨ip, hip, hget⟩ := hip hauto.2.1
        refine ⟨ip, hip, hget, ?_⟩
        rw [chooseIp, if_neg hauto.2.2, firstFreeIp_eq_ok] at hip
        obtain ⟨before, after, hpool, hbefore, hfree⟩ := hip
        have hgood : ¬(rrAddress cfg = some ip ∨ ¬InIpPool cfg ip) := fun hbad =>
          h ⟨hserved, .inr ⟨hauto, before, ip, after, hpool, hbefore, hfree, hbad⟩⟩
        rw [not_or, not_not] at hgood
        exact ⟨hgood.2, fun hother => hfree (mem_usedIp_of_otherLab hother), hgood.1⟩
    refine ⟨hok, fun hnone => ?_⟩
    -- what is allocated shows that there is something
    rcases hout : allocateForRealnetNode stored currentPath extra cfg fresh with e | out
    · exact ⟨e, rfl⟩
    · rcases hnone with ⟨hauto, hnone⟩ | ⟨hauto, hnone⟩
      · obtain ⟨asn, -, hfree⟩ := (hok out hout).1 hauto
        exact absurd ⟨asn, hfree⟩ hnone
      · obtain ⟨ip, -, -, hfree⟩ := (hok out hout).2 hauto
        exact absurd ⟨ip, hfree⟩ hnone

/-- A pool with the route reflector's AS number in it. -/
def reflectorPool : RealNetBgpConfig where
  rrAs := 64512
  rrIp := "10.0.0.10"
  hostNet := "10.0.0.0/24"
  routerAsPool := "64512-64520"

/-- The first router gets the AS number of the route reflector. -/
theorem not_conflictFree_reflectorPool :
    ¬∀ cfg, validateConfig cfg true = .ok () → ∀ stored currentPath extra,
      ConflictFree cfg stored currentPath extra := by
  intro h
  have hfree := not_hits_of_conflictFree
    (h reflectorPool (by decide +kernel) [] "lab.yml" (.ofFields [("bgp", .bool true)]))
  have hpool : parseAsPool reflectorPool.routerAsPool = .ok (64512, 64520) := by decide +kernel
  have hserved : ¬(Mapping.get (Mapping.ofFields [("bgp", .bool true)]) "bgp_as").truthy := by decide
  have hrr : InAsPool reflectorPool 64512 := ⟨_, hpool, by decide, by decide⟩
  refine hfree ⟨⟨?_, fun hne => absurd rfl hne, fun hp => absurd hp (by decide)⟩,
    .inl ⟨⟨by decide, hserved⟩, hrr, List.not_mem_nil, fun asn ⟨r, hr, hle, _⟩ hlt => ?_⟩⟩
  · rw [AsServed, if_neg hserved]
    exact ⟨64512, hrr, List.not_mem_nil⟩
  · rw [hpool] at hr
    cases hr
    exact absurd hlt (not_lt.2 hle)

end Dnlab.Gui.RealnetBgp
