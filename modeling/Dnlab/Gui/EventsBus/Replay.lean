import Dnlab.Gui.EventsBus
import Dnlab.Lib.Machine

/-!
# Replay and live delivery

Between the append of an event and the look for its subscribers, a subscribe may
add its queue and replay the history: then the event is replayed and delivered
(`not_exactlyOnce_overlap`). Where no publish overlaps a subscribe of its lab in
that way, and no two publishes hand their events over in the wrong order, what a
subscriber gets is what was published since its history began (`exactlyOnce_run`).
The invariant (`Chained`) follows each event: it is in the queue, or with the loop,
or owed by its publish.
-/

namespace Dnlab.Gui

variable {δ : Type}

/-! ## Queues -/

namespace Queue

variable {q : Queue δ} {event : BusEvent δ} {events : List (BusEvent δ)}

theorem received_take : q.take.received = q.received := by
  rw [take]
  split
  · rfl
  · rename_i hcontents
    rw [received, received, hcontents, List.append_assoc]
    rfl

@[simp] theorem lab_take : q.take.lab = q.lab := by
  rw [take]
  split <;> rfl

@[simp] theorem start_take : q.take.start = q.start := by
  rw [take]
  split <;> rfl

@[simp] theorem dropped_take : q.take.dropped = q.dropped := by
  rw [take]
  split <;> rfl

@[simp] theorem lab_tryPut : (q.tryPut event).lab = q.lab := by
  rw [tryPut]
  split_ifs <;> rfl

@[simp] theorem start_tryPut : (q.tryPut event).start = q.start := by
  rw [tryPut]
  split_ifs <;> rfl

/-- A queue that refuses nothing takes the event. -/
theorem received_tryPut (h : (q.tryPut event).dropped = false) :
    q.dropped = false ∧ (q.tryPut event).received = q.received ++ [event] := by
  rw [tryPut] at h ⊢
  split_ifs at h ⊢ with hfull
  exact ⟨h, (List.append_assoc _ _ _).symm⟩

theorem putAll_of_le (h : q.contents.length + events.length ≤ q.maxsize) :
    q.putAll events = ({ q with contents := q.contents ++ events }, true) := by
  induction events generalizing q with
  | nil => rw [putAll, List.append_nil]
  | cons event events ih =>
    rw [List.length_cons] at h
    have hfull : ¬q.full := fun hfull => by
      have := hfull.2
      omega
    have hput : (q.put event).contents = q.contents ++ [event] := rfl
    rw [putAll, if_neg hfull, ih (by rw [hput, List.length_append, List.length_singleton]; exact (by omega :
      q.contents.length + 1 + events.length ≤ q.maxsize)), hput, List.append_assoc]
    rfl

end Queue

/-! ## What is still to come -/

/-- A publish has yet to hand its event over for a queue of a lab. -/
def Publish.owes (lab : String) (id : ℕ) (p : Publish δ) : Bool :=
  match p.stage with
  | .appended => p.event.lab = lab
  | .sending owed => id ∈ owed

namespace EventsBus

variable {bus : EventsBus δ} {lab : String} {id : ℕ}

/-- The events that have yet to be handed over for a queue. -/
def owed (bus : EventsBus δ) (lab : String) (id : ℕ) : List (BusEvent δ) :=
  (bus.publishes.filter (Publish.owes lab id)).map Publish.event

/-- The events that the loop has yet to put into a queue. -/
def handed (bus : EventsBus δ) (id : ℕ) : List (BusEvent δ) :=
  (bus.ready.filter (·.1 = id)).map Prod.snd

/-- Every subscriber with a replay that refused nothing gets what was published since the
    replayed history begins, once and in order, and all of it when nothing is on its way. -/
def ExactlyOnce (bus : EventsBus δ) : Prop :=
  ∀ lab, ∀ id ∈ bus.subscribers lab, ∀ start, (bus.queues id).start = some start →
    (bus.queues id).dropped = false →
    (bus.queues id).received <+: (bus.published lab).drop start ∧
      (bus.handed id = [] → bus.owed lab id = [] →
        (bus.queues id).received = (bus.published lab).drop start)

/-- No publish overlaps a subscribe of its lab so that it would be replayed and delivered, or comes
    without the loop to a subscriber, and the publishes hand their events over to a queue in the
    order of the history. -/
def Guarded (bus : EventsBus δ) : Event δ → Prop
  | .publish event => ∀ id ∈ bus.subscribing, (bus.queues id).lab ≠ event.lab
  | .read i => ∀ p ∈ bus.publishes[i]?, bus.loop = false → bus.subscribers p.event.lab = ∅
  | .send i id => ∀ p ∈ bus.publishes.take i, p.owes (bus.queues id).lab id = false
  | .subscribe lab true => ∀ p ∈ bus.publishes, p.stage = .appended → p.event.lab ≠ lab
  | _ => True

instance (bus : EventsBus δ) (event : Event δ) : Decidable (bus.Guarded event) := by
  rcases event with _ | _ | _ | _ | _ | _ | _ | ⟨_, _ | _⟩ | _ <;> unfold Guarded <;> infer_instance

/-- What holds of the queues, for those who are promised all events and for the one that is about
    to get its history. -/
structure Chained (bus : EventsBus δ) : Prop where
  subscribed : ∀ lab, ∀ id ∈ bus.subscribers lab, id < bus.queueCount ∧ (bus.queues id).lab = lab
  owed_lt : ∀ p ∈ bus.publishes, ∀ owed, p.stage = .sending owed → ∀ id ∈ owed, id < bus.queueCount
  ready_lt : ∀ p ∈ bus.ready, p.1 < bus.queueCount
  history : ∀ lab, bus.history lab <:+ bus.published lab ∧
    (bus.history lab).length ≤ bus.bufferSize
  subscribing : ∀ id, bus.subscribing = some id → id < bus.queueCount ∧
    bus.queues id = Queue.new (bus.bufferSize * 2) (bus.queues id).lab ∧
    bus.handed id = [] ∧ bus.owed (bus.queues id).lab id = []
  chain : ∀ lab, ∀ id ∈ bus.subscribers lab, ∀ start, (bus.queues id).start = some start →
    (bus.queues id).dropped = false → start ≤ (bus.published lab).length ∧
    (bus.queues id).received ++ bus.handed id ++ bus.owed lab id = (bus.published lab).drop start

theorem Chained.exactlyOnce (h : bus.Chained) : bus.ExactlyOnce := by
  intro lab id hid start hstart hdropped
  obtain ⟨-, hchain⟩ := h.chain lab id hid start hstart hdropped
  refine ⟨⟨bus.handed id ++ bus.owed lab id, ?_⟩, fun hhanded howed => ?_⟩
  · rw [← List.append_assoc]
    exact hchain
  · rw [hhanded, howed, List.append_nil, List.append_nil] at hchain
    exact hchain

theorem chained_new (bufferSize : ℕ) : (new bufferSize : EventsBus δ).Chained where
  subscribed _ id hid := absurd hid (Finset.notMem_empty id)
  owed_lt _ hp := absurd hp List.not_mem_nil
  ready_lt _ hp := absurd hp List.not_mem_nil
  history _ := ⟨List.suffix_rfl, Nat.zero_le _⟩
  subscribing _ h := absurd h (Option.some_ne_none _).symm
  chain _ id hid := absurd hid (Finset.notMem_empty id)

/-! ## Publishing -/

theorem published_publish (event : BusEvent δ) (lab : String) :
    (bus.publish event).published lab =
      bus.published lab ++ if event.lab = lab then [event] else [] := by
  rw [published, published, publish]
  simp only [List.map_append, List.map_cons, List.map_nil, List.filter_append, List.filter_cons,
    List.filter_nil, decide_eq_true_eq]

theorem owed_publish (event : BusEvent δ) (lab : String) (id : ℕ) :
    (bus.publish event).owed lab id =
      bus.owed lab id ++ if event.lab = lab then [event] else [] := by
  rw [owed, owed, publish]
  simp only [List.filter_append, List.map_append, List.filter_cons, List.filter_nil,
    Publish.owes, decide_eq_true_eq]
  split_ifs <;> rfl

theorem Chained.publish (h : bus.Chained) {event : BusEvent δ}
    (hguard : bus.Guarded (.publish event)) :
    (bus.publish event).Chained where
  subscribed := h.subscribed
  owed_lt p hp := by
    rcases List.mem_append.1 hp with hp | hp
    · exact h.owed_lt p hp
    · rw [List.mem_singleton.1 hp]
      exact nofun
  ready_lt := h.ready_lt
  history lab := by
    obtain ⟨hsuffix, hle⟩ := h.history lab
    rw [published_publish]
    by_cases heq : event.lab = lab
    · subst heq
      rw [EventsBus.publish, if_pos rfl]
      dsimp only
      rw [Function.update_self, append]
      obtain ⟨earlier, hearlier⟩ := hsuffix
      refine ⟨(List.drop_suffix _ _).trans ⟨earlier, ?_⟩, ?_⟩
      · rw [← hearlier, List.append_assoc]
      · rw [List.length_drop, List.length_append, List.length_singleton]
        omega
    · rw [EventsBus.publish, if_neg heq, List.append_nil]
      dsimp only
      rw [Function.update_of_ne (Ne.symm heq)]
      exact ⟨hsuffix, hle⟩
  subscribing id hid := by
    obtain ⟨hlt, hnew, hhanded, howed⟩ := h.subscribing id hid
    refine ⟨hlt, hnew, hhanded, ?_⟩
    rw [owed_publish]
    exact (congrArg _ (if_neg (hguard id hid).symm)).trans ((List.append_nil _).trans howed)
  chain lab id hid start hstart hdropped := by
    obtain ⟨hle, hchain⟩ := h.chain lab id hid start hstart hdropped
    rw [owed_publish, published_publish, List.drop_append_of_le_length hle, ← List.append_assoc]
    exact ⟨hle.trans (by rw [List.length_append]; omega), congrArg (· ++ _) hchain⟩

/-- A list around one of its entries. -/
theorem exists_around {α : Type*} {l : List α} {i : ℕ} {a : α} (ha : l[i]? = some a) :
    ∃ l', l = l.take i ++ a :: l' ∧ ∀ b, l.set i b = l.take i ++ b :: l' := by
  obtain ⟨hlt, rfl⟩ := List.getElem?_eq_some_iff.1 ha
  refine ⟨l.drop (i + 1), ?_, fun b => ?_⟩
  · rw [List.getElem_cons_drop, List.take_append_drop]
  · rw [List.set_eq_take_append_cons_drop, if_pos hlt]

/-- A publish goes on with its event. -/
theorem published_set {i : ℕ} {p p' : Publish δ} (hp : bus.publishes[i]? = some p)
    (hevent : p'.event = p.event) (lab : String) :
    ((bus.publishes.set i p').map Publish.event).filter (·.lab = lab) = bus.published lab := by
  obtain ⟨later, hsplit, hset⟩ := exists_around hp
  rw [hset, published]
  nth_rewrite 2 [hsplit]
  rw [List.map_append, List.map_append, List.map_cons, List.map_cons, hevent]

/-- What is owed for a queue, if one publish may have handed its event over. -/
theorem owed_set {i : ℕ} {p : Publish δ} (p' : Publish δ) (hp : bus.publishes[i]? = some p)
    (lab : String) (id : ℕ) : ∃ earlier later,
    bus.owed lab id = earlier ++ (if p.owes lab id then [p.event] else []) ++ later ∧
    ((bus.publishes.set i p').filter (Publish.owes lab id)).map Publish.event =
      earlier ++ (if p'.owes lab id then [p'.event] else []) ++ later ∧
    earlier = ((bus.publishes.take i).filter (Publish.owes lab id)).map Publish.event := by
  obtain ⟨later, hsplit, hset⟩ := exists_around hp
  refine ⟨_, (later.filter (Publish.owes lab id)).map Publish.event, ?_, ?_, rfl⟩
  · rw [owed]
    nth_rewrite 1 [hsplit]
    rw [List.filter_append, List.filter_cons, List.map_append, List.append_assoc]
    split_ifs <;> rfl
  · rw [hset, List.filter_append, List.filter_cons, List.map_append, List.append_assoc]
    split_ifs <;> rfl

theorem owed_eq_of_owes {i : ℕ} {p p' : Publish δ} (hp : bus.publishes[i]? = some p)
    (hevent : p'.event = p.event) (howes : p'.owes lab id = p.owes lab id) :
    ((bus.publishes.set i p').filter (Publish.owes lab id)).map Publish.event = bus.owed lab id := by
  obtain ⟨earlier, later, hbefore, hafter, -⟩ := owed_set p' hp lab id
  rw [hafter, hbefore, howes, hevent]

theorem Chained.read (h : bus.Chained) {i : ℕ} (hguard : bus.Guarded (.read i)) :
    (bus.read i).Chained := by
  rw [EventsBus.read]
  split
  swap
  · exact h
  rename_i event hp
  have hevent {stage : Stage} : Publish.event ⟨event, stage⟩ = Publish.event ⟨event, .appended⟩ := rfl
  refine ⟨h.subscribed, fun p hmem owed howed id hid => ?_, h.ready_lt, fun lab => ?_, fun id hid => ?_,
    fun lab id hid start hstart hdropped => ?_⟩
  · rcases List.mem_or_eq_of_mem_set hmem with hmem | rfl
    · exact h.owed_lt p hmem owed howed id hid
    · rw [← Stage.sending.inj howed] at hid
      split_ifs at hid
      · exact (h.subscribed _ _ hid).1
      · exact absurd hid (Finset.notMem_empty id)
  · rw [EventsBus.published]
    dsimp only
    rw [published_set hp hevent]
    exact h.history lab
  · obtain ⟨hlt, hnew, hhanded, howed⟩ := h.subscribing id hid
    refine ⟨hlt, hnew, hhanded, ?_⟩
    -- its lab has no publish that has yet to look up the subscribers
    have hne : event.lab ≠ (bus.queues id).lab := fun heq => by
      have hmem : event ∈ bus.owed (bus.queues id).lab id :=
        List.mem_map.2 ⟨_, List.mem_filter.2 ⟨List.mem_of_getElem? hp, decide_eq_true heq⟩, rfl⟩
      rw [howed] at hmem
      exact List.not_mem_nil hmem
    rw [EventsBus.owed]
    dsimp only
    rw [owed_eq_of_owes hp hevent, howed]
    rw [Publish.owes, Publish.owes]
    dsimp only
    rw [decide_eq_decide]
    refine ⟨fun hmem => ?_, fun heq => absurd heq hne⟩
    split_ifs at hmem
    · exact (h.subscribed _ _ hmem).2.symm
    · exact absurd hmem (Finset.notMem_empty id)
  · rw [EventsBus.owed, EventsBus.published]
    dsimp only
    rw [published_set hp hevent, owed_eq_of_owes hp hevent]
    · exact h.chain lab id hid start hstart hdropped
    · rw [Publish.owes, Publish.owes]
      dsimp only
      rw [decide_eq_decide]
      constructor
      · intro hmem
        split_ifs at hmem
        · exact (h.subscribed _ _ hmem).2.symm.trans (h.subscribed _ _ hid).2
        · exact absurd hmem (Finset.notMem_empty id)
      · rintro rfl
        -- who subscribes is found, as the loop is bound
        cases hloop : bus.loop
        · exact absurd hid (hguard _ hp hloop ▸ Finset.notMem_empty id)
        · exact hid

theorem Chained.send (h : bus.Chained) {i id : ℕ} (hguard : bus.Guarded (.send i id)) :
    (bus.send i id).Chained := by
  rw [EventsBus.send]
  split
  swap
  · exact h
  rename_i event owed hp
  split_ifs with hid
  swap
  · exact h
  have hmem := List.mem_of_getElem? hp
  have hevent {stage : Stage} : Publish.event ⟨event, stage⟩ = Publish.event ⟨event, .sending owed⟩ := rfl
  -- only for the queue that gets the event something changes
  have hother {lab : String} {id' : ℕ} (hne : id' ≠ id) :
      Publish.owes lab id' ⟨event, .sending (owed.erase id)⟩ =
        Publish.owes lab id' ⟨event, .sending owed⟩ := by
    rw [Publish.owes, Publish.owes]
    dsimp only
    rw [decide_eq_decide, Finset.mem_erase, and_iff_right hne]
  have hhanded (id' : ℕ) : ((bus.ready ++ [(id, event)]).filter (·.1 = id')).map Prod.snd =
      bus.handed id' ++ if id = id' then [event] else [] := by
    rw [List.filter_append, List.map_append, List.filter_cons]
    simp only [decide_eq_true_eq]
    split_ifs <;> rfl
  refine ⟨h.subscribed, fun p hp' owed' howed id' hid' => ?_, fun p hp' => ?_, fun lab => ?_,
    fun id' hid' => ?_, fun lab id' hid' start hstart hdropped => ?_⟩
  · rcases List.mem_or_eq_of_mem_set hp' with hp' | rfl
    · exact h.owed_lt p hp' owed' howed id' hid'
    · rw [← Stage.sending.inj howed] at hid'
      exact h.owed_lt _ hmem owed rfl id' (Finset.mem_of_mem_erase hid')
  · rcases List.mem_append.1 hp' with hp' | hp'
    · exact h.ready_lt p hp'
    · rw [List.mem_singleton.1 hp']
      exact h.owed_lt _ hmem owed rfl id hid
  · rw [EventsBus.published]
    dsimp only
    rw [published_set hp hevent]
    exact h.history lab
  · obtain ⟨hlt, hnew, hhanded', howed⟩ := h.subscribing id' hid'
    have hne : id' ≠ id := fun heq => by
      have hmem : event ∈ bus.owed (bus.queues id').lab id' :=
        List.mem_map.2 ⟨_, List.mem_filter.2 ⟨hmem, decide_eq_true (heq ▸ hid)⟩, rfl⟩
      rw [howed] at hmem
      exact List.not_mem_nil hmem
    refine ⟨hlt, hnew, ?_, ?_⟩
    · exact (hhanded id').trans (by rw [hhanded', if_neg hne.symm]; rfl)
    · rw [EventsBus.owed]
      dsimp only
      rw [owed_eq_of_owes hp hevent (hother hne), howed]
  · obtain ⟨hle, hchain⟩ := h.chain lab id' hid' start hstart hdropped
    rw [EventsBus.owed, EventsBus.handed, EventsBus.published]
    dsimp only
    rw [published_set hp hevent, hhanded]
    refine ⟨hle, ?_⟩
    by_cases heq : id = id'
    · subst heq
      -- the event is the first that is owed to the queue
      obtain ⟨earlier, later, hbefore, hafter, hearlier⟩ :=
        owed_set ⟨event, .sending (owed.erase id)⟩ hp lab id
      obtain rfl : earlier = [] := by
        rw [hearlier, List.map_eq_nil_iff, List.filter_eq_nil_iff]
        intro p hp'
        rw [← (h.subscribed lab id hid').2, hguard p hp']
        exact Bool.false_ne_true
      have howes : Publish.owes lab id ⟨event, .sending owed⟩ = true := decide_eq_true hid
      rw [hbefore, if_pos howes] at hchain
      rw [hafter, if_pos rfl, if_neg (by rw [Publish.owes]; simp), ← hchain]
      simp only [List.append_assoc, List.nil_append]
    · rw [if_neg heq, List.append_nil, owed_eq_of_owes hp hevent (hother (Ne.symm heq))]
      exact hchain

/-! ## The thread of the loop -/

/-- One queue changes, and perhaps what is handed to it, but no more than in order. -/
theorem Chained.onQueue (h : bus.Chained) {f : Queue δ → Queue δ} {ready : List (ℕ × BusEvent δ)}
    {id : ℕ} (hlab : ∀ q, (f q).lab = q.lab) (hstart : ∀ q, (f q).start = q.start)
    (hfree : bus.subscribing = none) (hready : ∀ p ∈ ready, p ∈ bus.ready)
    (hother : ∀ id' ≠ id, (ready.filter (·.1 = id')).map Prod.snd = bus.handed id')
    (hthis : (f (bus.queues id)).dropped = false → (bus.queues id).dropped = false ∧
      (f (bus.queues id)).received ++ (ready.filter (·.1 = id)).map Prod.snd =
        (bus.queues id).received ++ bus.handed id) :
    ({ bus with ready }.onQueue id f).Chained := by
  rw [EventsBus.onQueue]
  refine ⟨fun lab id' hid' => ?_, h.owed_lt, fun p hp => h.ready_lt p (hready p hp), h.history,
    fun id' hid' => absurd (hfree.symm.trans hid') (Option.some_ne_none _).symm,
    fun lab id' hid' start hs hdropped => ?_⟩
  · obtain ⟨hlt, heq⟩ := h.subscribed lab id' hid'
    refine ⟨hlt, ?_⟩
    by_cases hid : id' = id
    · subst hid
      dsimp only
      rw [Function.update_self, hlab, heq]
    · dsimp only
      rw [Function.update_of_ne hid, heq]
  · by_cases hid : id' = id
    · subst hid
      dsimp only at hs hdropped
      rw [Function.update_self] at hs hdropped
      obtain ⟨hdropped, hrest⟩ := hthis hdropped
      rw [hstart] at hs
      obtain ⟨hle, hchain⟩ := h.chain lab id' hid' start hs hdropped
      refine ⟨hle, ?_⟩
      rw [handed]
      dsimp only
      rw [Function.update_self, hrest]
      exact hchain
    · dsimp only at hs hdropped
      rw [Function.update_of_ne hid] at hs hdropped
      obtain ⟨hle, hchain⟩ := h.chain lab id' hid' start hs hdropped
      refine ⟨hle, ?_⟩
      rw [handed]
      dsimp only
      rw [Function.update_of_ne hid, hother id' hid]
      exact hchain

theorem Chained.take (h : bus.Chained) (hfree : bus.subscribing = none) (id : ℕ) :
    (bus.onQueue id Queue.take).Chained :=
  h.onQueue (fun _ => Queue.lab_take) (fun _ => Queue.start_take) hfree (fun _ hp => hp)
    (fun _ _ => rfl) fun hdropped =>
      ⟨Queue.dropped_take.symm.trans hdropped, congrArg (· ++ _) Queue.received_take⟩

theorem Chained.deliver (h : bus.Chained) (hfree : bus.subscribing = none) :
    bus.deliver.Chained := by
  rw [EventsBus.deliver]
  split
  · exact h
  rename_i id event ready hready
  refine h.onQueue (fun _ => Queue.lab_tryPut) (fun _ => Queue.start_tryPut) hfree
    (fun p hp => hready ▸ List.mem_cons_of_mem _ hp) (fun id' hne => ?_) fun hdropped => ?_
  · rw [handed, hready, List.filter_cons, if_neg (by simpa using hne.symm)]
  · obtain ⟨hdropped, hreceived⟩ := Queue.received_tryPut hdropped
    refine ⟨hdropped, ?_⟩
    rw [hreceived, handed, hready, List.filter_cons, if_pos (by simp), List.append_assoc]
    rfl

theorem Chained.subscribe (h : bus.Chained) {replay : Bool}
    (hguard : bus.Guarded (.subscribe lab replay)) : (bus.subscribe lab replay).Chained := by
  have hlt {lab' : String} {id : ℕ} (hid : id ∈ bus.subscribers lab') : id ≠ bus.queueCount :=
    (h.subscribed lab' id hid).1.ne
  have hmem {lab' : String} {id : ℕ}
      (hid : id ∈ Function.update bus.subscribers lab (insert bus.queueCount (bus.subscribers lab)) lab') :
      id = bus.queueCount ∧ lab' = lab ∨ id ∈ bus.subscribers lab' := by
    by_cases heq : lab' = lab
    · subst heq
      rw [Function.update_self, Finset.mem_insert] at hid
      exact hid.imp_left fun hid => ⟨hid, rfl⟩
    · rw [Function.update_of_ne heq] at hid
      exact .inr hid
  rw [EventsBus.subscribe]
  refine ⟨fun lab' id hid => ?_, fun p hp owed howed id hid => ?_, fun p hp => ?_, h.history,
    fun id hid => ?_, fun lab' id hid start hstart hdropped => ?_⟩
  · dsimp only at hid ⊢
    rcases hmem hid with ⟨rfl, rfl⟩ | hid
    · rw [Function.update_self]
      exact ⟨Nat.lt_succ_self _, rfl⟩
    · rw [Function.update_of_ne (hlt hid)]
      exact ⟨(h.subscribed lab' id hid).1.trans (Nat.lt_succ_self _), (h.subscribed lab' id hid).2⟩
  · exact (h.owed_lt p hp owed howed id hid).trans (Nat.lt_succ_self _)
  · exact (h.ready_lt p hp).trans (Nat.lt_succ_self _)
  · cases replay
    · exact absurd hid (Option.some_ne_none _).symm
    obtain rfl : bus.queueCount = id := Option.some.inj hid
    dsimp only
    rw [Function.update_self]
    refine ⟨Nat.lt_succ_self _, rfl, ?_, ?_⟩
    · rw [handed, List.map_eq_nil_iff, List.filter_eq_nil_iff]
      intro p hp
      simpa using (h.ready_lt p hp).ne
    · rw [owed, List.map_eq_nil_iff, List.filter_eq_nil_iff]
      intro p hp
      rw [Publish.owes]
      split
      · rename_i hstage
        exact fun heq => hguard p hp hstage (of_decide_eq_true heq)
      · rename_i owed howed
        simpa using fun hid => (h.owed_lt p hp owed howed _ hid).ne rfl
  · dsimp only at hid hstart hdropped ⊢
    rcases hmem hid with ⟨rfl, rfl⟩ | hid
    · rw [Function.update_self] at hstart
      exact absurd hstart (Option.some_ne_none _).symm
    · rw [Function.update_of_ne (hlt hid)] at hstart hdropped ⊢
      exact h.chain lab' id hid start hstart hdropped

theorem Chained.unsubscribe (h : bus.Chained) (lab : String) (id : ℕ) : (bus.unsubscribe lab id).Chained := by
  have hmem {lab' : String} {id' : ℕ}
      (hid' : id' ∈ Function.update bus.subscribers lab ((bus.subscribers lab).erase id) lab') :
      id' ∈ bus.subscribers lab' := by
    by_cases heq : lab' = lab
    · subst heq
      rw [Function.update_self] at hid'
      exact Finset.mem_of_mem_erase hid'
    · rw [Function.update_of_ne heq] at hid'
      exact hid'
  exact ⟨fun lab' id' hid' => h.subscribed lab' id' (hmem hid'), h.owed_lt, h.ready_lt, h.history,
    h.subscribing, fun lab' id' hid' => h.chain lab' id' (hmem hid')⟩

/-- The history fits into a queue. -/
theorem Chained.replay_eq (h : bus.Chained) (hid : bus.subscribing = some id) :
    bus.replay = { bus with subscribing := none }.onQueue id fun q => { q with
      contents := bus.history q.lab
      start := some ((bus.published q.lab).length - (bus.history q.lab).length) } := by
  obtain ⟨-, hnew, -, -⟩ := h.subscribing id hid
  have hall : (bus.queues id).putAll (bus.history (bus.queues id).lab) =
      ({ bus.queues id with contents := bus.history (bus.queues id).lab }, true) := by
    obtain ⟨-, hle⟩ := h.history (bus.queues id).lab
    generalize hlab : (bus.queues id).lab = lab at hnew hle ⊢
    rw [hnew, Queue.putAll_of_le]
    · rfl
    · dsimp only [Queue.new, List.length_nil]
      omega
  rw [EventsBus.replay, hid]
  dsimp only
  rw [hall]
  rfl

theorem Chained.replay (h : bus.Chained) : bus.replay.Chained := by
  rcases hid : bus.subscribing with _ | id
  · rw [EventsBus.replay, hid]
    exact h
  rw [h.replay_eq hid, EventsBus.onQueue]
  obtain ⟨hlt, hnew, hhanded, howed⟩ := h.subscribing id hid
  refine ⟨fun lab id' hid' => ?_, h.owed_lt, h.ready_lt, h.history,
    fun _ hid' => absurd hid'.symm (Option.some_ne_none _), fun lab id' hid' start hs hdropped => ?_⟩
  · obtain ⟨hlt, heq⟩ := h.subscribed lab id' hid'
    refine ⟨hlt, ?_⟩
    by_cases hne : id' = id
    · subst hne
      dsimp only
      rw [Function.update_self, heq]
    · dsimp only
      rw [Function.update_of_ne hne, heq]
  · by_cases hne : id' = id
    · subst hne
      obtain ⟨-, rfl⟩ := h.subscribed lab id' hid'
      obtain ⟨hsuffix, -⟩ := h.history (bus.queues id').lab
      dsimp only at hs hdropped ⊢
      rw [Function.update_self] at hs
      obtain rfl := Option.some.inj hs
      -- the history is the end of what was published, and nothing else is on its way
      have htaken : (bus.queues id').taken = [] := by rw [hnew]; rfl
      refine ⟨Nat.sub_le _ _, ?_⟩
      rw [Function.update_self, Queue.received]
      dsimp only
      rw [htaken, List.nil_append, EventsBus.handed, EventsBus.owed]
      dsimp only
      rw [← EventsBus.handed, ← EventsBus.owed, hhanded, howed, List.append_nil, List.append_nil]
      exact List.suffix_iff_eq_drop.1 hsuffix
    · dsimp only at hs hdropped ⊢
      rw [Function.update_of_ne hne] at hs hdropped ⊢
      exact h.chain lab id' hid' start hs hdropped

/-! ## Runs -/

theorem Chained.step (h : bus.Chained) {event : Event δ} (hguard : bus.Guarded event) :
    (bus.step event).Chained := by
  have honLoop (f : EventsBus δ → EventsBus δ) (hf : bus.subscribing = none → (f bus).Chained) :
      (bus.onLoop f).Chained := by
    rw [onLoop]
    split_ifs with hfree
    · exact hf hfree
    · exact h
  rcases event with event | i | ⟨i, id⟩ | _ | _ | _ | id | ⟨lab, replay⟩ | ⟨lab, id⟩
  case publish => exact h.publish hguard
  case read => exact h.read hguard
  case send => exact h.send hguard
  case replay => exact h.replay
  case bindLoop => exact honLoop _ fun _ => ⟨h.1, h.2, h.3, h.4, h.5, h.6⟩
  case deliver => exact honLoop _ h.deliver
  case take => exact honLoop (·.onQueue id Queue.take) (h.take · id)
  case subscribe => exact honLoop (·.subscribe lab replay) fun _ => h.subscribe hguard
  case unsubscribe => exact honLoop (·.unsubscribe lab id) fun _ => h.unsubscribe lab id

/-- While publishes and subscribes overlap in none of the ways that do harm, every subscriber gets
    each event once. -/
theorem exactlyOnce_run (bufferSize : ℕ) {events : List (Event δ)}
    (h : Machine.GuardedRun step Guarded (new bufferSize) events) :
    (Machine.run step (new bufferSize) events).ExactlyOnce :=
  (h.invariant (chained_new bufferSize) fun _ _ hchained hguard => hchained.step hguard).exactlyOnce

/-! ## An overlap -/

/-- An event of the test lab. -/
def event : BusEvent Unit := { lab := "lab", phase := "deploy", status := "start", data := () }

/-- A publish of one event, and a subscribe between its append and its look for subscribers. -/
def overlap : List (Event Unit) :=
  [.bindLoop, .publish event, .subscribe "lab" true, .replay, .read 0, .send 0 0, .deliver]

theorem not_exactlyOnce_overlap : ¬(Machine.run step (new 500) overlap).ExactlyOnce := by
  intro h
  have hprefix := (h "lab" 0 (by decide) 0 rfl rfl).1.length_le
  revert hprefix
  decide

/-- A publish, a subscribe after it, and one more publish. -/
def apart : List (Event Unit) :=
  [.bindLoop, .publish event, .read 0, .subscribe "lab" true, .replay, .publish event, .read 1, .send 1 0,
    .deliver]

theorem exactlyOnce_apart : (Machine.run step (new 500) apart).ExactlyOnce :=
  exactlyOnce_run 500 (by decide)

end EventsBus

end Dnlab.Gui
