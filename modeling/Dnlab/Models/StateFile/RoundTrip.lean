import Dnlab.Models.StateFile

/-!
# Storing a state and loading it again

What is stored of a state is read as that state (`readState_toDict`), and what
`from_dict` made up once it does not make up again (`complete_complete`). So a
state survives being stored (`reload_eq_ok_iff`), unless a file of an older
layout names a device by something that is no text, which JSON cannot keep as a
key.
-/

namespace Dnlab.StateFile

/-! ## What was written is read -/

section Read

variable {cls : DataClass} {α : Type} {f : Value → Except String α} {g : α → Value}

theorem readRecord_toValue (r : Record cls) : readRecord cls r.toValue = .ok r := by
  rw [readRecord, r.kwargs_toValue]
  exact r.make_entries

theorem readOption_optionValue (hcls : cls.fields ≠ []) (o : Option (Record cls)) :
    readOption cls (optionValue o) = .ok o := by
  cases o with
  | none => rfl
  | some r =>
    have htruthy : r.toValue.truthy = true := by
      obtain ⟨f, hf⟩ := List.exists_mem_of_ne_nil _ hcls
      have hkey := r.mem_key_of_field hf
      rw [Record.toValue, Value.truthy]
      cases hentries : r.entries with
      | nil =>
        rw [hentries] at hkey
        cases hkey
      | cons e l => rfl
    rw [optionValue, readOption, if_pos htruthy, readRecord_toValue]
    rfl

theorem mapM_written {β : Type} {g : α → β} {f : β → Except String α} (hf : ∀ a, f (g a) = .ok a)
    (l : List α) : (l.map g).mapM f = .ok l := by
  rw [ExceptRules.mapM_eq_ok, List.forall₂_map_left_iff]
  exact List.forall₂_same.2 fun a _ => hf a

theorem readList_listValue {f : Value → Except String (Record cls)}
    (hf : ∀ r : Record cls, f r.toValue = .ok r) (l : List (Record cls)) :
    readList f (listValue l) = .ok l :=
  mapM_written hf l

theorem ofList_items {κ : Type} [DecidableEq κ] (d : Dict κ α) : Dict.ofList d.items = d :=
  Dict.ext (Dict.items_ofList_of_nodup d.nodup_keys)

theorem readKeyed_keyedValue (hf : ∀ a, f (g a) = .ok a) (d : Dict Key α) :
    readKeyed f (keyedValue g d) = .ok d := by
  have hentries : (d.items.map fun e => (e.1, g e.2)).mapM (fun e => do
      let a ← f e.2
      pure (e.1, a)) = .ok d.items :=
    mapM_written (fun e => by rw [hf]; rfl) d.items
  rw [readKeyed, keyedValue, Value.entriesOf]
  simp only [ExceptRules.bind_eq_ok]
  exact ⟨_, rfl, _, hentries, by rw [ofList_items]; rfl⟩

theorem readDict_dictValue (hf : ∀ a, f (g a) = .ok a) (d : Dict String α) :
    readDict f (dictValue g d) = .ok d := by
  have hnodup : ((d.items.map fun e => (Key.str e.1, e.2)).map Prod.fst).Nodup := by
    have hkeys : (d.keys.map Key.str).Nodup := d.nodup_keys.map fun _ _ h => Key.str.inj h
    rw [Dict.keys, List.map_map] at hkeys
    rwa [List.map_map]
  have hitems := Dict.items_ofList_of_nodup hnodup
  have hvalue : dictValue g d =
      keyedValue g (.ofList (d.items.map fun e => (Key.str e.1, e.2))) := by
    rw [dictValue, keyedValue, hitems, List.map_map]
    rfl
  rw [readDict, hvalue, readKeyed_keyedValue hf]
  simp only [ExceptRules.bind_eq_ok]
  refine ⟨_, rfl, ?_⟩
  rw [hitems, List.map_map]
  exact congrArg Except.ok ((congrArg Dict.ofList (List.map_id d.items)).trans (ofList_items d))

theorem readRealnet_toValue (r : Record realNetState) : readRealnet r.toValue = .ok r := by
  have hno : ∀ name, name ∉ realNetState.fields.map Prod.fst →
      Key.str name ∉ r.entries.map Prod.fst := by
    intro name hname hmem
    rw [r.keys_eq] at hmem
    obtain ⟨f, hf, heq⟩ := List.mem_map.1 hmem
    exact hname (Key.str.inj heq ▸ List.mem_map_of_mem hf)
  have hhas : r.entries.has "ospf" = false := by
    rw [Mapping.has, Option.isSome_eq_false_iff, Option.isNone_iff_eq_none, List.lookup_eq_none_iff]
    intro e he
    rw [bne_iff_ne]
    intro heq
    exact hno "ospf" (by decide) (heq ▸ List.mem_map_of_mem he)
  have hmigrate : migrateRealnet r.entries = r.entries := by
    rw [migrateRealnet, hhas, Bool.false_and]
    refine List.filter_eq_self.2 fun e he => ?_
    rw [decide_eq_true_eq]
    intro heq
    exact hno "ospf_area" (by decide) (heq ▸ List.mem_map_of_mem he)
  rw [readRealnet, Record.toValue, Value.toMapping]
  show readRecord realNetState (.dict (migrateRealnet r.entries)) = _
  rw [hmigrate]
  exact readRecord_toValue r

/-- What is stored of a state is read as that state. -/
theorem readState_toDict (st : State) : readState st.toDict = .ok st := by
  have hrecord : ∀ {cls : DataClass} (r : Record cls), readRecord cls r.toValue = .ok r :=
    readRecord_toValue
  have hlabName : st.toDict.item "lab_name" = .ok st.labName := rfl
  have htopologyFile : st.toDict.item "topology_file" = .ok st.topologyFile := rfl
  have hmgmt : readOption mgmtState (st.toDict.get "mgmt") = .ok st.mgmt :=
    readOption_optionValue (by decide) st.mgmt
  have hjumphost : readOption jumphostState (st.toDict.get "jumphost") = .ok st.jumphost :=
    readOption_optionValue (by decide) st.jumphost
  have hdns : readOption dnsState (st.toDict.get "dns") = .ok st.dns :=
    readOption_optionValue (by decide) st.dns
  have hrelays : readDict (readRecord runtimeRelayState)
      (st.toDict.getD "runtime_relays" (.dict [])) = .ok st.runtimeRelays :=
    readDict_dictValue hrecord st.runtimeRelays
  have hscheduling : readDict (readRecord hostScheduleState)
      (st.toDict.getD "scheduling" (.dict [])) = .ok st.scheduling :=
    readDict_dictValue hrecord st.scheduling
  have hvxlan : readList (readRecord vxlanLinkState)
      (st.toDict.getD "vxlan_dataplane" (.list [])) = .ok st.vxlanDataplane :=
    readList_listValue hrecord st.vxlanDataplane
  have hanchors : readDict (readRecord mgmtAnchorState) (st.toDict.get "mgmt_anchors").orEmpty =
      .ok st.mgmtAnchors :=
    (Value.orEmpty_dict _).symm ▸ readDict_dictValue hrecord st.mgmtAnchors
  have hruntime : readKeyed (readRecord nodeRuntimeState) (st.toDict.get "node_runtime").orEmpty =
      .ok st.nodeRuntime :=
    (Value.orEmpty_dict _).symm ▸ readKeyed_keyedValue hrecord st.nodeRuntime
  have hlinks : readList (readRecord runtimeLinkState)
      (st.toDict.getD "runtime_links" (.list [])) = .ok st.runtimeLinks :=
    readList_listValue hrecord st.runtimeLinks
  have hwebui : readDict (readList (readRecord webUIAllocation))
      (st.toDict.get "webui_allocations").orEmpty = .ok st.webuiAllocations :=
    (Value.orEmpty_dict _).symm ▸ readDict_dictValue (readList_listValue hrecord) st.webuiAllocations
  have hreservations : (st.toDict.get "mgmt_ip_reservations").orEmpty.toMapping =
      .ok st.mgmtIpReservations.items :=
    (Value.orEmpty_dict _).symm ▸ congrArg Except.ok (List.map_id _)
  have hrealnets : readList readRealnet (st.toDict.getD "realnets" (.list [])) = .ok st.realnets :=
    readList_listValue readRealnet_toValue st.realnets
  rw [readState, hlabName, htopologyFile, hmgmt, hjumphost, hdns, hrelays, hscheduling, hvxlan,
    hanchors, hruntime, hlinks, hwebui, hreservations, hrealnets]
  exact congrArg (fun d => Except.ok { st with mgmtIpReservations := d }) (ofList_items _)

end Read

/-! ## What is made up -/

section Complete

variable {st st' : State}

theorem complete_eq_ok : complete st = .ok st' ↔ ∃ st₁ st₂, completeRuntime st = .ok st₁ ∧
    completeMode st₁ = .ok st₂ ∧ completeReservations st₂ = st' := by
  simp only [complete, ExceptRules.bind_eq_ok, ExceptRules.pure_eq_ok]
  constructor
  · rintro ⟨st₁, h₁, st₂, h₂, h⟩
    exact ⟨st₁, st₂, h₁, h₂, h⟩
  · rintro ⟨st₁, st₂, h₁, h₂, h⟩
    exact ⟨st₁, h₁, st₂, h₂, h⟩

/-- Where nothing is to be made up, or what there is would be made up again. -/
theorem complete_of_settled
    (hruntime : st.nodeRuntime.items.isEmpty = true →
      populateLegacyNodeRuntime st = .ok st.nodeRuntime)
    (hmode : (!st.runtimeMode.truthy && !st.nodeRuntime.items.isEmpty) = false)
    (hreservations : completeReservations st = st) : complete st = .ok st := by
  refine complete_eq_ok.2 ⟨st, st, ?_, ?_, hreservations⟩
  · unfold completeRuntime
    split
    · rw [hruntime ‹_›]
      rfl
    · rfl
  · rw [completeMode, hmode]
    rfl

/-- A state that lacks nothing is left as it is. -/
theorem complete_of_full (hmode : st.runtimeMode.truthy = true)
    (hruntime : st.nodeRuntime.items.isEmpty = false)
    (hreservations : st.mgmtIpReservations.items.isEmpty = false) : complete st = .ok st := by
  refine complete_of_settled (fun h => ?_) ?_ ?_
  · rw [hruntime] at h
    cases h
  · rw [hmode]
    rfl
  · rw [completeReservations, hreservations]
    rfl

/-- The devices that are there after they were made up are those that would be made up again. -/
theorem completeRuntime_eq_ok (h : completeRuntime st = .ok st') :
    (∃ d, st' = { st with nodeRuntime := d }) ∧ (st'.nodeRuntime.items.isEmpty = true →
      populateLegacyNodeRuntime st' = .ok st'.nodeRuntime) := by
  unfold completeRuntime at h
  split at h
  · obtain ⟨d, hd, rfl⟩ := ExceptRules.map_eq_ok.1 h
    exact ⟨⟨d, rfl⟩, fun _ => hd⟩
  · rename_i hne
    cases h
    exact ⟨⟨st.nodeRuntime, rfl⟩, fun he => absurd he hne⟩

theorem completeMode_eq_ok (h : completeMode st = .ok st') :
    (∃ m, st' = { st with runtimeMode := m }) ∧
      (!st'.runtimeMode.truthy && !st'.nodeRuntime.items.isEmpty) = false := by
  unfold completeMode at h
  split at h
  · obtain ⟨m, hm, rfl⟩ := ExceptRules.map_eq_ok.1 h
    refine ⟨⟨m, rfl⟩, ?_⟩
    simp only [inferMode, ExceptRules.bind_eq_ok, ExceptRules.pure_eq_ok] at hm
    obtain ⟨perVd, -, rfl⟩ := hm
    cases perVd <;> rfl
  · rename_i hne
    cases h
    exact ⟨⟨st.runtimeMode, rfl⟩, Bool.not_eq_true _ ▸ hne⟩

theorem completeReservations_of_ne (h : ¬st.mgmtIpReservations.items.isEmpty = true) :
    completeReservations st = st :=
  if_neg h

theorem completeReservations_idem :
    completeReservations (completeReservations st) = completeReservations st := by
  by_cases h : st.mgmtIpReservations.items.isEmpty = true
  · have hst : completeReservations st = { st with mgmtIpReservations := runtimeAddresses st } :=
      if_pos h
    rw [hst, completeReservations]
    split <;> rfl
  · rw [completeReservations_of_ne h, completeReservations_of_ne h]

/-- The reservations alone are changed. -/
theorem completeReservations_eq : completeReservations st =
    { st with mgmtIpReservations := (completeReservations st).mgmtIpReservations } := by
  unfold completeReservations
  split <;> rfl

/-- What was made up is not made up again. -/
theorem complete_complete (h : complete st = .ok st') : complete st' = .ok st' := by
  obtain ⟨st₁, st₂, h₁, h₂, rfl⟩ := complete_eq_ok.1 h
  obtain ⟨-, hruntime⟩ := completeRuntime_eq_ok h₁
  obtain ⟨⟨m, rfl⟩, hmode⟩ := completeMode_eq_ok h₂
  refine complete_of_settled ?_ ?_ completeReservations_idem
  · rw [completeReservations_eq]
    exact hruntime
  · rw [completeReservations_eq]
    exact hmode

end Complete

/-! ## What is kept as JSON -/

/-- Whether all values of a state are documents that JSON can hold. -/
structure State.IsPlain (st : State) : Prop where
  labName : st.labName.isJson = true
  topologyFile : st.topologyFile.isJson = true
  deployedAt : st.deployedAt.isJson = true
  dnlabDeployed : st.dnlabDeployed.isJson = true
  runtimeMode : st.runtimeMode.isJson = true
  vrfTableId : st.vrfTableId.isJson = true
  mgmt : ∀ r ∈ st.mgmt, r.IsPlain
  jumphost : ∀ r ∈ st.jumphost, r.IsPlain
  dns : ∀ r ∈ st.dns, r.IsPlain
  runtimeRelays : ∀ e ∈ st.runtimeRelays.items, e.2.IsPlain
  scheduling : ∀ e ∈ st.scheduling.items, e.2.IsPlain
  vxlanDataplane : ∀ r ∈ st.vxlanDataplane, r.IsPlain
  mgmtAnchors : ∀ e ∈ st.mgmtAnchors.items, e.2.IsPlain
  nodeRuntime : ∀ e ∈ st.nodeRuntime.items, e.2.IsPlain
  runtimeLinks : ∀ r ∈ st.runtimeLinks, r.IsPlain
  webuiAllocations : ∀ e ∈ st.webuiAllocations.items, ∀ r ∈ e.2, r.IsPlain
  mgmtIpReservations : ∀ e ∈ st.mgmtIpReservations.items, e.2.isJson = true
  realnets : ∀ r ∈ st.realnets, r.IsPlain
  phasesCompleted : st.phasesCompleted.isJson = true

/-- Whether the devices of a state, and those that addresses are reserved for, have texts for
    names. -/
def State.HasTextKeys (st : State) : Prop :=
  (∀ k ∈ st.nodeRuntime.keys, k.isText = true) ∧ ∀ k ∈ st.mgmtIpReservations.keys, k.isText = true

section Plain

variable {cls : DataClass} {α : Type} {g : α → Value} {st : State}

theorem isJson_optionValue {o : Option (Record cls)} (h : ∀ r ∈ o, r.IsPlain) :
    (optionValue o).isJson = true := by
  cases o with
  | none => rfl
  | some r => exact (h r rfl).isJson

theorem isJson_listValue {l : List (Record cls)} (h : ∀ r ∈ l, r.IsPlain) :
    (listValue l).isJson = true := by
  rw [listValue, Value.isJson_list]
  intro v hv
  obtain ⟨r, hr, rfl⟩ := List.mem_map.1 hv
  exact (h r hr).isJson

theorem isJson_keyedValue {d : Dict Key α} (hkeys : ∀ k ∈ d.keys, k.isText = true)
    (h : ∀ e ∈ d.items, (g e.2).isJson = true) : (keyedValue g d).isJson = true := by
  rw [keyedValue, Value.isJson_dict, List.map_map]
  refine ⟨d.nodup_keys, fun e he => ?_⟩
  obtain ⟨e', he', rfl⟩ := List.mem_map.1 he
  exact ⟨hkeys e'.1 (List.mem_map_of_mem he'), h e' he'⟩

theorem isJson_dictValue {d : Dict String α} (h : ∀ e ∈ d.items, (g e.2).isJson = true) :
    (dictValue g d).isJson = true := by
  have hkeys : (d.keys.map Key.str).Nodup := d.nodup_keys.map fun _ _ h => Key.str.inj h
  rw [Dict.keys, List.map_map] at hkeys
  rw [dictValue, Value.isJson_dict, List.map_map]
  refine ⟨hkeys, fun e he => ?_⟩
  obtain ⟨e', he', rfl⟩ := List.mem_map.1 he
  exact ⟨rfl, h e' he'⟩

/-- What is stored of a state whose devices have texts for names can be held by JSON. -/
theorem isJson_toDict (h : st.IsPlain) (hkeys : st.HasTextKeys) :
    (Value.dict st.toDict).isJson = true := by
  refine Value.isJson_dict.2 ⟨by simp [State.toDict, Mapping.ofFields], ?_⟩
  rw [State.toDict, Mapping.ofFields]
  simp only [List.map_cons, List.map_nil, List.forall_mem_cons]
  exact ⟨⟨rfl, h.labName⟩, ⟨rfl, h.topologyFile⟩, ⟨rfl, h.deployedAt⟩, ⟨rfl, h.dnlabDeployed⟩,
    ⟨rfl, h.runtimeMode⟩, ⟨rfl, h.vrfTableId⟩, ⟨rfl, isJson_optionValue h.mgmt⟩,
    ⟨rfl, isJson_optionValue h.jumphost⟩, ⟨rfl, isJson_optionValue h.dns⟩,
    ⟨rfl, isJson_dictValue fun e he => (h.runtimeRelays e he).isJson⟩,
    ⟨rfl, isJson_dictValue fun e he => (h.scheduling e he).isJson⟩,
    ⟨rfl, isJson_listValue h.vxlanDataplane⟩,
    ⟨rfl, isJson_dictValue fun e he => (h.mgmtAnchors e he).isJson⟩,
    ⟨rfl, isJson_keyedValue hkeys.1 fun e he => (h.nodeRuntime e he).isJson⟩,
    ⟨rfl, isJson_listValue h.runtimeLinks⟩,
    ⟨rfl, isJson_dictValue fun e he => isJson_listValue (h.webuiAllocations e he)⟩,
    ⟨rfl, isJson_keyedValue hkeys.2 h.mgmtIpReservations⟩, ⟨rfl, isJson_listValue h.realnets⟩,
    ⟨rfl, h.phasesCompleted⟩, fun e he => absurd he List.not_mem_nil⟩

/-- A plain state is loaded as what is made up of it. -/
theorem reload_eq_complete (h : st.IsPlain) (hkeys : st.HasTextKeys) : reload st = complete st := by
  have hjson := Value.isJson_dict.1 (isJson_toDict h hkeys)
  have hentries : Value.viaJsonEntries st.toDict = st.toDict :=
    Value.viaJsonEntries_of_entriesAreJson _ (Value.entriesAreJson_iff.2 hjson.2)
  rw [reload, hentries, Dict.items_ofList_of_nodup hjson.1, fromDict, readState_toDict]
  rfl

end Plain

/-! ## What is read from JSON -/

section FromJson

variable {cls : DataClass} {α : Type} {f : Value → Except String α} {P : α → Prop} {v : Value}

theorem isJson_elems {l : List Value} (hv : v.isJson = true) (h : v.elems = .ok l) :
    ∀ w ∈ l, w.isJson = true := by
  unfold Value.elems at h
  split at h
  · cases h
    exact Value.isJson_list.1 hv
  · cases h
    intro w hw
    obtain ⟨c, -, rfl⟩ := List.mem_map.1 hw
    rfl
  · cases h
    intro w hw
    obtain ⟨e, -, rfl⟩ := List.mem_map.1 hw
    split <;> rfl
  · cases h

theorem isJson_getD {d : Mapping} {name : String} {w : Value} (hd : (Value.dict d).isJson = true)
    (hw : w.isJson = true) : (d.getD name w).isJson = true := by
  rw [Mapping.getD]
  cases hl : d.lookup (.str name) with
  | none => exact hw
  | some v =>
    obtain ⟨l₁, l₂, rfl, -⟩ := List.lookup_eq_some_iff.1 hl
    exact ((Value.isJson_dict.1 hd).2 (.str name, v) (by simp)).2

theorem isJson_orEmpty (hv : v.isJson = true) : v.orEmpty.isJson = true := by
  rw [Value.orEmpty]
  split
  · exact hv
  · rfl

theorem isPlain_of_readRecord_dict {r : Record cls} {d : Mapping} (hcls : cls.PlainDefaults)
    (hd : ∀ e ∈ d, e.2.isJson = true) (h : readRecord cls (.dict d) = .ok r) : r.IsPlain := by
  obtain ⟨args, hargs, hmake⟩ := ExceptRules.bind_eq_ok.1 h
  rw [Value.kwargs] at hargs
  split at hargs
  · cases hargs
    exact DataClass.isPlain_of_make hcls hmake hd
  · cases hargs

theorem isPlain_of_readRecord {r : Record cls} (hcls : cls.PlainDefaults) (hv : v.isJson = true)
    (h : readRecord cls v = .ok r) : r.IsPlain := by
  cases v with
  | dict d =>
    exact isPlain_of_readRecord_dict hcls (fun e he => ((Value.isJson_dict.1 hv).2 e he).2) h
  | _ => cases h

theorem isPlain_of_readOption {o : Option (Record cls)} (hcls : cls.PlainDefaults)
    (hv : v.isJson = true) (h : readOption cls v = .ok o) : ∀ r ∈ o, r.IsPlain := by
  unfold readOption at h
  split at h
  · obtain ⟨r, hr, h⟩ := ExceptRules.bind_eq_ok.1 h
    cases h
    rintro _ ⟨⟩
    exact isPlain_of_readRecord hcls hv hr
  · cases h
    exact fun r hr => absurd hr (by simp)

theorem forall_of_readList {l : List α} (hf : ∀ w a, w.isJson = true → f w = .ok a → P a)
    (hv : v.isJson = true) (h : readList f v = .ok l) : ∀ a ∈ l, P a := by
  obtain ⟨ws, hws, h⟩ := ExceptRules.bind_eq_ok.1 h
  intro a ha
  obtain ⟨w, hw, hfw⟩ := ExceptRules.forall₂_exists (ExceptRules.mapM_eq_ok.1 h) ha
  exact hf w a (isJson_elems hv hws w hw) hfw

theorem forall_of_readKeyed {d : Dict Key α} (hf : ∀ w a, w.isJson = true → f w = .ok a → P a)
    (hv : v.isJson = true) (h : readKeyed f v = .ok d) :
    ∀ e ∈ d.items, e.1.isText = true ∧ P e.2 := by
  obtain ⟨m, hm, h⟩ := ExceptRules.bind_eq_ok.1 h
  obtain ⟨entries, hentries, h⟩ := ExceptRules.bind_eq_ok.1 h
  cases h
  intro e he
  have hmem := Dict.mem_of_get?_ofList (Dict.get?_eq_some_iff.2 he)
  obtain ⟨e', he', hread⟩ := ExceptRules.forall₂_exists (ExceptRules.mapM_eq_ok.1 hentries) hmem
  obtain ⟨a, ha, hread⟩ := ExceptRules.bind_eq_ok.1 hread
  obtain ⟨hkey, hvalue⟩ := Prod.mk.inj (Except.ok.inj hread)
  have hjson : e'.1.isText = true ∧ e'.2.isJson = true := by
    unfold Value.entriesOf at hm
    split at hm
    · cases hm
      exact (Value.isJson_dict.1 hv).2 e' he'
    · cases hm
  exact ⟨hkey ▸ hjson.1, hvalue ▸ hf e'.2 a hjson.2 ha⟩

theorem forall_of_readDict {d : Dict String α} (hf : ∀ w a, w.isJson = true → f w = .ok a → P a)
    (hv : v.isJson = true) (h : readDict f v = .ok d) : ∀ e ∈ d.items, P e.2 := by
  obtain ⟨m, hm, h⟩ := ExceptRules.bind_eq_ok.1 h
  cases h
  intro e he
  have hmem := Dict.mem_of_get?_ofList (Dict.get?_eq_some_iff.2 he)
  obtain ⟨e', he', heq⟩ := List.mem_map.1 hmem
  rw [← (Prod.mk.inj heq).2]
  exact (forall_of_readKeyed hf hv hm e' he').2

theorem isJson_of_pair {e : Key × Value} (hv : v.isJson = true) (h : v.pair = .ok e) :
    e.2.isJson = true := by
  obtain ⟨l, hl, h⟩ := ExceptRules.bind_eq_ok.1 h
  split at h
  · obtain ⟨k, -, h⟩ := ExceptRules.bind_eq_ok.1 h
    cases h
    exact isJson_elems hv hl _ (by simp)
  · cases h

theorem isJson_of_toMapping {d : Mapping} (hv : v.isJson = true) (h : v.toMapping = .ok d) :
    ∀ e ∈ d, e.2.isJson = true := by
  unfold Value.toMapping at h
  split at h
  · cases h
    exact fun e he => ((Value.isJson_dict.1 hv).2 e he).2
  · obtain ⟨l, hl, h⟩ := ExceptRules.bind_eq_ok.1 h
    obtain ⟨pairs, hpairs, h⟩ := ExceptRules.bind_eq_ok.1 h
    cases h
    intro e he
    have hmem := Dict.mem_of_get?_ofList (Dict.get?_eq_some_iff.2 he)
    obtain ⟨w, hw, hpair⟩ := ExceptRules.forall₂_exists (ExceptRules.mapM_eq_ok.1 hpairs) hmem
    exact isJson_of_pair (isJson_elems hv hl w hw) hpair

theorem isJson_of_migrateRealnet {rn : Mapping} (h : ∀ e ∈ rn, e.2.isJson = true) :
    ∀ e ∈ migrateRealnet rn, e.2.isJson = true := by
  intro e he
  have he' := (List.mem_filter.1 he).1
  split at he'
  · rcases Dict.mem_of_mem_setItems he' with rfl | he'
    · rfl
    · exact h e (List.mem_filter.1 he').1
  · exact h e he'

theorem isPlain_of_readRealnet {r : Record realNetState} (hv : v.isJson = true)
    (h : readRealnet v = .ok r) : r.IsPlain := by
  obtain ⟨rn, hrn, h⟩ := ExceptRules.bind_eq_ok.1 h
  refine isPlain_of_readRecord_dict (by decide) ?_ h
  exact isJson_of_migrateRealnet (isJson_of_toMapping hv hrn)

/-- What is read of a file is plain. -/
theorem isPlain_of_readState {d : Mapping} {st : State} (hd : (Value.dict d).isJson = true)
    (h : readState d = .ok st) : st.IsPlain := by
  simp only [readState, ExceptRules.bind_eq_ok, ExceptRules.pure_eq_ok] at h
  obtain ⟨labName, hlabName, topologyFile, htopologyFile, mgmt, hmgmt, jumphost, hjumphost, dns, hdns,
    relays, hrelays, scheduling, hscheduling, vxlan, hvxlan, anchors, hanchors, runtime, hruntime,
    links, hlinks, webui, hwebui, reservations, hreservations, realnets, hrealnets, rfl⟩ := h
  have hget : ∀ name, (d.get name).isJson = true := fun name => isJson_getD hd rfl
  have hrecord : ∀ {cls : DataClass}, cls.PlainDefaults → ∀ v (r : Record cls), v.isJson = true →
      readRecord cls v = .ok r → r.IsPlain :=
    fun hcls _ _ hv h => isPlain_of_readRecord hcls hv h
  have hitem : ∀ {name v}, d.item name = .ok v → v.isJson = true := by
    intro name v hv
    have hv' := hget name
    unfold Mapping.item at hv
    split at hv
    · rename_i hlookup
      cases hv
      rwa [Mapping.get, Mapping.getD, hlookup] at hv'
    · cases hv
  exact
    { labName := hitem hlabName
      topologyFile := hitem htopologyFile
      deployedAt := isJson_getD hd rfl
      dnlabDeployed := isJson_getD hd rfl
      runtimeMode := isJson_getD hd rfl
      vrfTableId := isJson_getD hd rfl
      mgmt := isPlain_of_readOption (by decide) (hget _) hmgmt
      jumphost := isPlain_of_readOption (by decide) (hget _) hjumphost
      dns := isPlain_of_readOption (by decide) (hget _) hdns
      runtimeRelays := forall_of_readDict (hrecord (by decide)) (isJson_getD hd rfl) hrelays
      scheduling := forall_of_readDict (hrecord (by decide)) (isJson_getD hd rfl) hscheduling
      vxlanDataplane := forall_of_readList (hrecord (by decide)) (isJson_getD hd rfl) hvxlan
      mgmtAnchors := forall_of_readDict (hrecord (by decide)) (isJson_orEmpty (hget _)) hanchors
      nodeRuntime := fun e he =>
        (forall_of_readKeyed (hrecord (by decide)) (isJson_orEmpty (hget _)) hruntime e he).2
      runtimeLinks := forall_of_readList (hrecord (by decide)) (isJson_getD hd rfl) hlinks
      webuiAllocations := forall_of_readDict (P := fun l => ∀ r ∈ l, r.IsPlain)
        (fun _ _ hv h => forall_of_readList (P := Record.IsPlain) (hrecord (by decide)) hv h)
        (isJson_orEmpty (hget _)) hwebui
      mgmtIpReservations := fun e he => isJson_of_toMapping (isJson_orEmpty (hget _)) hreservations
        (e.1, e.2) (Dict.mem_of_get?_ofList (Dict.get?_eq_some_iff.2 he))
      realnets := forall_of_readList (fun _ _ hv h => isPlain_of_readRealnet hv h)
        (isJson_getD hd rfl) hrealnets
      phasesCompleted := isJson_getD hd rfl }

theorem isPlain_of_legacyRuntime {labName node : Value} {host : String}
    {schedule : Record hostScheduleState} {e : Key × Record nodeRuntimeState}
    (hschedule : schedule.IsPlain) (hnode : node.isJson = true)
    (h : legacyRuntime labName host schedule node = .ok e) : e.2.IsPlain := by
  obtain ⟨key, -, h⟩ := ExceptRules.bind_eq_ok.1 h
  obtain ⟨r, hr, h⟩ := ExceptRules.bind_eq_ok.1 h
  cases h
  refine DataClass.isPlain_of_make (by decide) hr ?_
  simp only [Mapping.ofFields, List.map_cons, List.map_nil, List.forall_mem_cons]
  exact ⟨hnode, rfl, rfl, rfl, hschedule.get "topology_file", fun e he => absurd he (by simp)⟩

/-- What is made up of a plain state is plain. -/
theorem isPlain_of_complete {st st' : State} (hst : st.IsPlain) (h : complete st = .ok st') :
    st'.IsPlain := by
  obtain ⟨st₁, st₂, h₁, h₂, rfl⟩ := complete_eq_ok.1 h
  have hst₁ : st₁.IsPlain := by
    unfold completeRuntime at h₁
    split at h₁
    · obtain ⟨d, hd, rfl⟩ := ExceptRules.map_eq_ok.1 h₁
      refine { hst with nodeRuntime := fun e he => ?_ }
      obtain ⟨byHost, hbyHost, hd⟩ := ExceptRules.bind_eq_ok.1 hd
      cases hd
      have hmem := Dict.mem_of_get?_ofList (Dict.get?_eq_some_iff.2 he)
      obtain ⟨l, hl, hmem⟩ := List.mem_flatten.1 hmem
      obtain ⟨⟨host, schedule⟩, hs, hread⟩ :=
        ExceptRules.forall₂_exists (ExceptRules.mapM_eq_ok.1 hbyHost) hl
      obtain ⟨nodes, hnodes, hread⟩ := ExceptRules.bind_eq_ok.1 hread
      obtain ⟨node, hnode, hlegacy⟩ :=
        ExceptRules.forall₂_exists (ExceptRules.mapM_eq_ok.1 hread) hmem
      have hschedule := hst.scheduling _ hs
      exact isPlain_of_legacyRuntime hschedule
        (isJson_elems (hschedule.get "vd") hnodes node hnode) hlegacy
    · cases h₁
      exact hst
  have hst₂ : st₂.IsPlain := by
    unfold completeMode at h₂
    split at h₂
    · obtain ⟨m, hm, rfl⟩ := ExceptRules.map_eq_ok.1 h₂
      simp only [inferMode, ExceptRules.bind_eq_ok, ExceptRules.pure_eq_ok] at hm
      obtain ⟨perVd, -, rfl⟩ := hm
      exact { hst₁ with runtimeMode := rfl }
    · cases h₂
      exact hst₁
  unfold completeReservations
  split
  · refine { hst₂ with mgmtIpReservations := fun e he => ?_ }
    obtain ⟨e', he', rfl⟩ := List.mem_map.1 he
    exact (hst₂.nodeRuntime e' (List.mem_filter.1 he').1).get "mgmt_ipv4"
  · exact hst₂

end FromJson

/-! ## Names that are no texts -/

section TextKeys

variable {α : Type} {f : Value → Except String α} {g : α → Value} {st : State}

theorem mem_keys_readKeyed {l : Mapping} {d : Dict Key α} (h : readKeyed f (.dict l) = .ok d)
    {k : Key} : k ∈ d.keys ↔ k ∈ l.map Prod.fst := by
  obtain ⟨m, hm, hread⟩ := ExceptRules.bind_eq_ok.1 h
  obtain ⟨entries, hentries, hd⟩ := ExceptRules.bind_eq_ok.1 hread
  rw [← Except.ok.inj hm] at hentries
  rw [← Except.ok.inj hd, Dict.mem_keys_ofList]
  have hall := ExceptRules.mapM_eq_ok.1 hentries
  clear h hm hread hentries hd
  induction hall with
  | nil => rfl
  | cons he _ ih =>
    obtain ⟨a, -, he⟩ := ExceptRules.bind_eq_ok.1 he
    rw [List.map_cons, List.map_cons, List.mem_cons, List.mem_cons, ← Except.ok.inj he]
    exact or_congr_right ih

/-- The keys of a mapping that was stored and read back are texts, and it has some if it had. -/
theorem viaJson_keyedValue (d : Dict Key α) : ∃ l, (keyedValue g d).viaJson = .dict l ∧
    (∀ k ∈ l.map Prod.fst, k.isText = true) ∧ (l.map Prod.fst = [] → d.keys = []) := by
  refine ⟨_, rfl, fun k hk => ?_, fun hnil => ?_⟩
  · obtain ⟨e, he, rfl⟩ := List.mem_map.1 hk
    exact Value.isText_of_viaJson he
  · rw [List.eq_nil_iff_forall_not_mem]
    intro k hk
    obtain ⟨e, he, rfl⟩ := List.mem_map.1 hk
    have hmem : Key.str e.1.json ∈
        (Dict.ofList (Value.viaJsonEntries (d.items.map fun e => (e.1, g e.2)))).keys := by
      rw [Dict.mem_keys_ofList, Value.viaJsonEntries_eq_map, List.map_map, List.map_map]
      exact List.mem_map_of_mem he
    rw [Dict.keys, hnil] at hmem
    exact absurd hmem List.not_mem_nil

/-- The devices and the reservations that are read. -/
theorem readState_eq_ok {d : Mapping} (h : readState d = .ok st) :
    readKeyed (readRecord nodeRuntimeState) (d.get "node_runtime").orEmpty = .ok st.nodeRuntime ∧
      ∃ r, (d.get "mgmt_ip_reservations").orEmpty.toMapping = .ok r ∧
        st.mgmtIpReservations = .ofList r := by
  simp only [readState, ExceptRules.bind_eq_ok, ExceptRules.pure_eq_ok] at h
  obtain ⟨-, -, -, -, -, -, -, -, -, -, -, -, -, -, -, -, -, -, runtime, hruntime, -, -, -, -,
    reservations, hreservations, -, -, rfl⟩ := h
  exact ⟨hruntime, reservations, hreservations, rfl⟩

/-- What is there is not made up. -/
theorem complete_eq_of_ne {st st' : State} (h : complete st = .ok st') :
    (st.nodeRuntime.keys ≠ [] → st'.nodeRuntime = st.nodeRuntime) ∧
      (st.mgmtIpReservations.keys ≠ [] → st'.mgmtIpReservations = st.mgmtIpReservations) := by
  have hempty : ∀ {α : Type} {d : Dict Key α}, d.keys ≠ [] → ¬d.items.isEmpty = true :=
    fun hne he => hne (by rw [Dict.keys, List.isEmpty_iff.1 he]; rfl)
  obtain ⟨st₁, st₂, h₁, h₂, rfl⟩ := complete_eq_ok.1 h
  obtain ⟨⟨m, rfl⟩, -⟩ := completeMode_eq_ok h₂
  rw [completeReservations_eq]
  refine ⟨fun hne => ?_, fun hne => ?_⟩
  · rw [completeRuntime, if_neg (hempty hne)] at h₁
    rw [Except.ok.inj h₁]
  · obtain ⟨⟨d, rfl⟩, -⟩ := completeRuntime_eq_ok h₁
    have hkept : ∀ st₂ : State, st₂.mgmtIpReservations = st.mgmtIpReservations →
        (completeReservations st₂).mgmtIpReservations = st.mgmtIpReservations := fun st₂ heq => by
      rw [completeReservations_of_ne (heq ▸ hempty hne), heq]
    exact hkept _ rfl

/-- What is loaded of a stored state has texts for names. -/
theorem hasTextKeys_of_reload (h : reload st = .ok st) : st.HasTextKeys := by
  obtain ⟨st₀, hread, hcomplete⟩ := ExceptRules.bind_eq_ok.1 h
  have hstored : (Dict.ofList (Value.viaJsonEntries st.toDict)).items =
      st.toDict.map fun e => (.str e.1.json, e.2.viaJson) := by
    rw [Value.viaJsonEntries_eq_map, Dict.items_ofList_of_nodup]
    rw [List.map_map]
    simp [State.toDict, Mapping.ofFields, Key.json]
  rw [hstored] at hread
  obtain ⟨hruntime, r, hr, hreservations⟩ := readState_eq_ok hread
  obtain ⟨hkeep, hkeep'⟩ := complete_eq_of_ne hcomplete
  obtain ⟨l, hl, htext, hnil⟩ := viaJson_keyedValue (g := Record.toValue) st.nodeRuntime
  obtain ⟨l', hl', htext', hnil'⟩ := viaJson_keyedValue (g := id) st.mgmtIpReservations
  have hmem : ∀ k, k ∈ st₀.nodeRuntime.keys ↔ k ∈ l.map Prod.fst := by
    have hget : readKeyed (readRecord nodeRuntimeState)
        (keyedValue Record.toValue st.nodeRuntime).viaJson.orEmpty = .ok st₀.nodeRuntime := hruntime
    rw [hl, Value.orEmpty_dict] at hget
    exact fun k => mem_keys_readKeyed hget
  have hmem' : ∀ k, k ∈ st₀.mgmtIpReservations.keys ↔ k ∈ l'.map Prod.fst := by
    have hget : (keyedValue id st.mgmtIpReservations).viaJson.orEmpty.toMapping = .ok r := hr
    rw [hl', Value.orEmpty_dict] at hget
    rw [hreservations, ← Except.ok.inj hget]
    exact fun k => Dict.mem_keys_ofList
  -- A mapping that was not empty is not made up again.
  have hne : ∀ {α β : Type} {d : Dict Key α} {d' : Dict Key β} {ks : List Key} {k : Key},
      (∀ k, k ∈ d.keys ↔ k ∈ ks) → (ks = [] → d'.keys = []) → k ∈ d'.keys → d.keys ≠ [] := by
    intro α β d d' ks k hiff hnil hk hnone
    refine List.ne_nil_of_mem hk (hnil (List.eq_nil_iff_forall_not_mem.2 fun k' hk' => ?_))
    exact absurd ((hiff k').2 hk') (hnone ▸ List.not_mem_nil)
  constructor
  · intro k hk
    exact htext k ((hmem k).1 (hkeep (hne hmem hnil hk) ▸ hk))
  · intro k hk
    exact htext' k ((hmem' k).1 (hkeep' (hne hmem' hnil' hk) ▸ hk))

end TextKeys

/-! ## The round trip -/

/-- A file that was loaded is loaded again as the same state after it was stored, and so is a state
    that lacks nothing that is made up, just if the devices and those that addresses are reserved
    for have texts for names. -/
theorem reload_eq_ok_iff :
    (∀ (d : Mapping) (st : State), (Value.dict d).isJson = true → fromDict d = .ok st →
      (reload st = .ok st ↔ st.HasTextKeys)) ∧
    ∀ st : State, st.IsPlain → st.runtimeMode.truthy = true → st.nodeRuntime ≠ ∅ →
      st.mgmtIpReservations ≠ ∅ → (reload st = .ok st ↔ st.HasTextKeys) := by
  constructor
  · intro d st hd h
    refine ⟨hasTextKeys_of_reload, fun hkeys => ?_⟩
    obtain ⟨st₀, hread, hcomplete⟩ := ExceptRules.bind_eq_ok.1 h
    have hplain := isPlain_of_complete (isPlain_of_readState hd hread) hcomplete
    rw [reload_eq_complete hplain hkeys]
    exact complete_complete hcomplete
  · intro st hplain hmode hruntime hreservations
    refine ⟨hasTextKeys_of_reload, fun hkeys => ?_⟩
    have hne : ∀ {α : Type} {d : Dict Key α}, d ≠ ∅ → d.items.isEmpty = false := by
      intro α d hd
      rw [List.isEmpty_eq_false_iff]
      exact fun hnil => hd (Dict.ext hnil)
    rw [reload_eq_complete hplain hkeys]
    exact complete_of_full hmode (hne hruntime) (hne hreservations)

/-! ### Files of an older layout -/

/-- A file without records of the devices; one host lists `node`. -/
def legacyFile (node : Value) : Mapping :=
  .ofFields [
    ("lab_name", .str "demo"),
    ("topology_file", .str "/tmp/demo.yml"),
    ("scheduling", .dict (Mapping.ofFields [("master", .dict (Mapping.ofFields [
      ("host", .str "10.0.0.10"),
      ("topology_file", .str "/tmp/demo-master.yml"),
      ("vd", .list [node])]))]))]

instance (st : State) : Decidable st.HasTextKeys :=
  inferInstanceAs (Decidable ((∀ k ∈ st.nodeRuntime.keys, k.isText = true) ∧
    ∀ k ∈ st.mgmtIpReservations.keys, k.isText = true))

theorem fromDict_legacyFile (node : Value) (h : node ∈ [.str "R1", .int 1]) :
    ∃ st, fromDict (legacyFile node) = .ok st ∧ (st.HasTextKeys ↔ node.str?.isSome = true) := by
  have hkeys : (fromDict (legacyFile node)).toOption.map (fun st => decide st.HasTextKeys) =
      some node.str?.isSome := by
    rcases List.mem_pair.1 h with rfl | rfl <;> decide
  obtain ⟨st, hst, hkeys⟩ := Option.map_eq_some_iff.1 hkeys
  refine ⟨st, ?_, by rw [← hkeys, decide_eq_true_eq]⟩
  cases hfile : fromDict (legacyFile node) with
  | error e =>
    rw [hfile] at hst
    cases hst
  | ok st' =>
    rw [hfile] at hst
    exact congrArg Except.ok (Option.some.inj hst)

theorem reload_legacyFile : ∃ st, fromDict (legacyFile (.str "R1")) = .ok st ∧
    reload st = .ok st := by
  obtain ⟨st, hst, hkeys⟩ := fromDict_legacyFile (.str "R1") (by simp)
  exact ⟨st, hst, (reload_eq_ok_iff.1 (legacyFile (.str "R1")) st (by decide +kernel) hst).2
    (hkeys.2 rfl)⟩

/-- A device that a host lists as a number is recorded under the number, and under its text after
    the state was stored. -/
theorem not_reload_legacyFile : ¬∀ (d : Mapping) (st : State), (Value.dict d).isJson = true →
    fromDict d = .ok st → reload st = .ok st := by
  intro hall
  obtain ⟨st, hst, hkeys⟩ := fromDict_legacyFile (.int 1) (by simp)
  have htext := hasTextKeys_of_reload (hall _ st (by decide +kernel) hst)
  exact absurd (hkeys.1 htext) (by decide)

end Dnlab.StateFile
