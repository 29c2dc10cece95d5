import Dnlab.Gui.MultinodeService
import Dnlab.Lib.Machine
import Mathlib.Algebra.Order.Group.Multiset
import Mathlib.Data.Finset.Card
import Mathlib.Tactic.Abel

/-!
# Remote events on the way to the bus

Where an event is: on the bus, or on its way in one of the streams that are read
(`Taken`). The steps keep an event from being in two places (`Bridged`), if those that
bring a stream something new, its replay and the queues that an event is handed to,
bring it what no stream has taken. Then no event is on the bus twice, and all of them
are there if none is missing (`Bridged.exactlyOnce`).
-/

namespace Dnlab.Gui.Bridge

/-- What a stream has yet to bring, of the replay, in the queue and on the wire. -/
def Stream.pending (stream : Stream) : Multiset ℕ :=
  (stream.replaying.getD [] : Multiset ℕ) + (stream.queue : Multiset ℕ) + (stream.wire : Multiset ℕ)

theorem coe_cons (n : ℕ) (ns : List ℕ) : ((n :: ns : List ℕ) : Multiset ℕ) = {n} + (ns : Multiset ℕ) :=
  (Multiset.singleton_add n ns).symm

theorem coe_concat (ns : List ℕ) (n : ℕ) : ((ns ++ [n] : List ℕ) : Multiset ℕ) = (ns : Multiset ℕ) + {n} :=
  rfl

/-- What is addressed to one stream. -/
def addressed (k : ℕ) (pairs : List (ℕ × ℕ)) : Multiset ℕ := (pairs.filter (·.1 = k)).map Prod.snd

theorem addressed_nil (k : ℕ) : addressed k [] = 0 := rfl

theorem addressed_append (k : ℕ) (pairs pairs' : List (ℕ × ℕ)) :
    addressed k (pairs ++ pairs') = addressed k pairs + addressed k pairs' := by
  rw [addressed, List.filter_append, List.map_append, ← Multiset.coe_add]
  rfl

theorem addressed_cons (k : ℕ) (p : ℕ × ℕ) (pairs : List (ℕ × ℕ)) :
    addressed k (p :: pairs) = (if p.1 = k then {p.2} else 0) + addressed k pairs := by
  rw [addressed, addressed, List.filter_cons]
  by_cases hk : p.1 = k
  · rw [if_pos (decide_eq_true hk), if_pos hk, List.map_cons, coe_cons]
  · rw [if_neg (by simpa using hk), if_neg hk, zero_add]

theorem addressed_erase {p : ℕ × ℕ} {pairs : List (ℕ × ℕ)} (hp : p ∈ pairs) (k : ℕ) :
    addressed k pairs = (if p.1 = k then {p.2} else 0) + addressed k (pairs.erase p) := by
  rw [← addressed_cons]
  exact Multiset.coe_eq_coe.2 (((List.perm_cons_erase hp).filter _).map _)

namespace Topic

variable {δ : Type} {topic : Topic δ} {k n : ℕ}

/-- What the stream of a call has yet to bring to the bus, wherever it is. -/
def pending (topic : Topic δ) (k : ℕ) : Multiset ℕ :=
  addressed k topic.due + addressed k topic.ready + (topic.streams k).pending

/-- An event is on the bus, or on its way. -/
def Taken (topic : Topic δ) (n : ℕ) : Prop :=
  n ∈ topic.published ∨ ∃ k ∈ topic.live, n ∈ topic.pending k

instance (topic : Topic δ) (n : ℕ) : Decidable (topic.Taken n) :=
  inferInstanceAs (Decidable (_ ∨ ∃ k ∈ topic.live, _))

/-- The streams that are read and have a queue at the controller. -/
def listening (topic : Topic δ) : Finset ℕ := topic.live ∩ topic.subscribers

/-- No event of the controller is on the bus twice, and all of them are there when no call runs. -/
def ExactlyOnce (topic : Topic δ) : Prop :=
  ∀ lab, (topic.bus lab).Subperm (topic.emitted.map (BusEvent.ofRemote lab)) ∧
    (topic.running = ∅ → (topic.bus lab).Perm (topic.emitted.map (BusEvent.ofRemote lab)))

/-- An event is in no two places. -/
structure Bridged (topic : Topic δ) : Prop where
  lt : (∀ n ∈ topic.published, n < topic.emitted.length) ∧
    (∀ k ∈ topic.live, ∀ n ∈ topic.pending k, n < topic.emitted.length) ∧
    (∀ n ∈ topic.history, n < topic.emitted.length) ∧ ∀ n ∈ topic.unread, n < topic.emitted.length
  history : topic.history.Nodup
  nodup : topic.published.Nodup
  once : ∀ k ∈ topic.live, ((topic.published : Multiset ℕ) + topic.pending k).Nodup
  apart : ∀ k ∈ topic.live, ∀ k' ∈ topic.live, k ≠ k' → ∀ n ∈ topic.pending k, n ∉ topic.pending k'
  live : topic.live ⊆ topic.running
  fresh : ∀ k, topic.calls ≤ k →
    topic.pending k = 0 ∧ k ∉ topic.subscribers ∧ (topic.streams k).replaying = none

theorem bridged_new : (new : Topic δ).Bridged where
  lt := ⟨fun _ h => absurd h List.not_mem_nil, fun _ h => absurd h (Finset.notMem_empty _),
    fun _ h => absurd h List.not_mem_nil, fun _ h => absurd h List.not_mem_nil⟩
  history := List.nodup_nil
  nodup := List.nodup_nil
  once _ h := absurd h (Finset.notMem_empty _)
  apart _ h := absurd h (Finset.notMem_empty _)
  live := Finset.Subset.refl _
  fresh _ _ := ⟨rfl, Finset.notMem_empty _, rfl⟩

/-- A step that keeps what the streams that are read have to bring keeps where the events are. -/
theorem taken_congr {topic' : Topic δ} (hpublished : topic'.published = topic.published)
    (hlive : topic'.live = topic.live)
    (hpending : ∀ k ∈ topic.live, topic'.pending k = topic.pending k) (n : ℕ) :
    topic'.Taken n ↔ topic.Taken n := by
  rw [Taken, Taken, hpublished, hlive]
  exact or_congr_right (exists_congr fun k => and_congr_right fun hk => by rw [hpending k hk])

/-- When some of the streams have more to bring, those that are read take it. -/
theorem taken_add {topic' : Topic δ} {ns : Multiset ℕ} {P : ℕ → Prop} [DecidablePred P]
    (hpending : ∀ k, topic'.pending k = topic.pending k + if P k then ns else 0)
    (hpublished : topic'.published = topic.published) (hlive : topic'.live = topic.live) (n : ℕ) :
    topic'.Taken n ↔ topic.Taken n ∨ (∃ k ∈ topic.live, P k) ∧ n ∈ ns := by
  have hmem (k : ℕ) : n ∈ topic'.pending k ↔ n ∈ topic.pending k ∨ P k ∧ n ∈ ns := by
    rw [hpending, Multiset.mem_add]
    split_ifs with hk
    · simp [hk]
    · simp [hk]
  simp only [Taken, hpublished, hlive, hmem]
  constructor
  · rintro (hpub | ⟨k, hk, hn | ⟨hp, hn⟩⟩)
    · exact .inl (.inl hpub)
    · exact .inl (.inr ⟨k, hk, hn⟩)
    · exact .inr ⟨⟨k, hk, hp⟩, hn⟩
  · rintro ((hpub | ⟨k, hk, hn⟩) | ⟨⟨k, hk, hp⟩, hn⟩)
    · exact .inl hpub
    · exact .inr ⟨k, hk, .inl hn⟩
    · exact .inr ⟨k, hk, .inr ⟨hp, hn⟩⟩

/-! ## What is on the bus -/

theorem filterMap_range (emitted : List (ProgressEvent δ)) (lab : String) :
    (List.range emitted.length).filterMap (fun n => emitted[n]?.map (BusEvent.ofRemote lab)) =
      emitted.map (BusEvent.ofRemote lab) := by
  induction emitted using List.reverseRecOn with
  | nil => rfl
  | append_singleton emitted event ih =>
    rw [List.length_append, List.length_singleton, List.range_succ, List.filterMap_append,
      List.map_append, ← ih]
    congr 1
    · refine List.filterMap_congr fun n hn => ?_
      rw [List.getElem?_append_left (List.mem_range.1 hn)]
    · rw [List.filterMap_cons, List.getElem?_concat_length]
      rfl

theorem Bridged.exactlyOnce (h : topic.Bridged)
    (hbus : topic.running = ∅ → ∀ n < topic.emitted.length, n ∈ topic.published) :
    topic.ExactlyOnce := by
  intro lab
  rw [← filterMap_range]
  refine ⟨?_, fun hidle => ?_⟩
  · have hsubset : topic.published ⊆ List.range topic.emitted.length := fun n hn =>
      List.mem_range.2 (h.lt.1 n hn)
    obtain ⟨ns, hperm, hsublist⟩ := List.subperm_of_subset h.nodup hsubset
    exact ⟨_, hperm.filterMap _, hsublist.filterMap _⟩
  · refine List.Perm.filterMap _ ((List.perm_ext_iff_of_nodup h.nodup List.nodup_range).2 fun n => ?_)
    rw [List.mem_range]
    exact ⟨h.lt.1 n, hbus hidle n⟩

/-! ## On the way -/

/-- A step that loses nothing that is on its way to the bus, and takes nothing up, keeps all. -/
theorem Bridged.of_pending {topic' : Topic δ} (h : topic.Bridged)
    (hemitted : topic'.emitted = topic.emitted) (hhistory : topic'.history = topic.history)
    (hunread : topic'.unread ⊆ topic.unread) (hpublished : topic'.published = topic.published)
    (hlive : topic'.live = topic.live) (hrunning : topic'.running = topic.running)
    (hpending : ∀ k ∈ topic.live, topic'.pending k = topic.pending k)
    (hfresh : ∀ k, topic'.calls ≤ k →
      topic'.pending k = 0 ∧ k ∉ topic'.subscribers ∧ (topic'.streams k).replaying = none) :
    topic'.Bridged where
  lt := by
    rw [hemitted, hhistory, hpublished, hlive]
    refine ⟨h.lt.1, fun k hk n hn => ?_, h.lt.2.2.1, fun n hn => h.lt.2.2.2 n (hunread hn)⟩
    rw [hpending k hk] at hn
    exact h.lt.2.1 k hk n hn
  history := hhistory ▸ h.history
  nodup := hpublished ▸ h.nodup
  once k hk := by
    rw [hlive] at hk
    rw [hpublished, hpending k hk]
    exact h.once k hk
  apart k hk k' hk' hne n hn := by
    rw [hlive] at hk hk'
    rw [hpending k hk] at hn
    rw [hpending k' hk']
    exact h.apart k hk k' hk' hne n hn
  live := by
    rw [hlive, hrunning]
    exact h.live
  fresh := hfresh

/-- A stream that moves on has the same to bring. -/
theorem pending_update {stream : Stream} (hstream : stream.pending = (topic.streams k).pending)
    (k' : ℕ) : { topic with streams := Function.update topic.streams k stream }.pending k' =
      topic.pending k' := by
  rw [pending, pending]
  dsimp only
  by_cases hk : k' = k
  · subst hk
    rw [Function.update_self, hstream]
  · rw [Function.update_of_ne hk]

/-- A stream that the controller has taken up moves on. -/
theorem Bridged.update (h : topic.Bridged) {stream : Stream}
    (hstream : stream.pending = (topic.streams k).pending)
    (hreplaying : (topic.streams k).replaying ≠ none) :
    { topic with streams := Function.update topic.streams k stream }.Bridged := by
  refine h.of_pending rfl rfl (fun _ h => h) rfl rfl rfl (fun k' _ => pending_update hstream k')
    fun k' hk' => ?_
  obtain ⟨hzero, hnot, hnone⟩ := h.fresh k' hk'
  have hne : k' ≠ k := fun heq => hreplaying (heq ▸ hnone)
  refine ⟨(pending_update hstream k').trans hzero, hnot, ?_⟩
  dsimp only
  rw [Function.update_of_ne hne]
  exact hnone

/-- A step that moves on what one stream has to bring. -/
def MovesOn (topic topic' : Topic δ) : Prop :=
  topic' = topic ∨ ∃ k stream, stream.pending = (topic.streams k).pending ∧
    (topic.streams k).replaying ≠ none ∧
    topic' = { topic with streams := Function.update topic.streams k stream }

theorem movesOn_sendReplay (topic : Topic δ) (k : ℕ) : topic.MovesOn (topic.sendReplay k) := by
  rw [Topic.sendReplay]
  split
  swap
  · exact .inl rfl
  rename_i n replaying hreplaying
  refine .inr ⟨k, _, ?_, hreplaying ▸ (Option.some_ne_none _), rfl⟩
  rw [Stream.pending, Stream.pending, hreplaying]
  dsimp only [Option.getD_some]
  rw [coe_concat, coe_cons]
  abel

theorem movesOn_sendQueue (topic : Topic δ) (k : ℕ) : topic.MovesOn (topic.sendQueue k) := by
  rw [Topic.sendQueue]
  split
  swap
  · exact .inl rfl
  rename_i n queue hreplaying hqueue
  refine .inr ⟨k, _, ?_, hreplaying ▸ (Option.some_ne_none _), rfl⟩
  rw [Stream.pending, Stream.pending, hreplaying, hqueue]
  dsimp only
  rw [coe_concat, coe_cons]
  abel

theorem Bridged.moveOn {topic' : Topic δ} (h : topic.Bridged) (hmove : topic.MovesOn topic') :
    topic'.Bridged := by
  rcases hmove with rfl | ⟨k, stream, hstream, hreplaying, rfl⟩
  · exact h
  · exact h.update hstream hreplaying

theorem Bridged.accept (h : topic.Bridged) (k : ℕ) : (topic.accept k).Bridged := by
  rw [Topic.accept]
  split_ifs with hk
  · refine h.of_pending rfl rfl (fun _ h => h) rfl rfl rfl (fun _ _ => rfl) fun k' hk' => ?_
    obtain ⟨hzero, hnot, hnone⟩ := h.fresh k' hk'
    refine ⟨hzero, fun hmem => ?_, hnone⟩
    rcases Finset.mem_insert.1 hmem with rfl | hmem
    · exact absurd hk.1 (not_lt.2 hk')
    · exact hnot hmem
  · exact h

theorem Bridged.disconnect (h : topic.Bridged) (k : ℕ) : (topic.disconnect k).Bridged := by
  rw [Topic.disconnect]
  split_ifs
  · refine h.of_pending rfl rfl (fun _ h => h) rfl rfl rfl (fun _ _ => rfl) fun k' hk' => ?_
    obtain ⟨hzero, hnot, hnone⟩ := h.fresh k' hk'
    exact ⟨hzero, fun hmem => hnot (Finset.mem_of_mem_erase hmem), hnone⟩
  · exact h

theorem pending_send (topic : Topic δ) (k n k' : ℕ) :
    (topic.send k n).pending k' = topic.pending k' := by
  rw [Topic.send]
  split_ifs with hdue
  · rw [pending, pending, addressed_erase hdue]
    dsimp only
    rw [addressed_append, addressed_cons, addressed_nil]
    abel
  · rfl

theorem Bridged.send (h : topic.Bridged) (k n : ℕ) : (topic.send k n).Bridged := by
  have hpending := pending_send topic k n
  rw [Topic.send] at hpending ⊢
  split_ifs at hpending ⊢
  · refine h.of_pending rfl rfl (fun _ h => h) rfl rfl rfl (fun k' _ => hpending k') fun k' hk' => ?_
    exact ⟨(hpending k').trans (h.fresh k' hk').1, (h.fresh k' hk').2⟩
  · exact h

/-- An event that finds its queue full is lost, and nothing else is. -/
theorem pending_deliver (topic : Topic δ) (k : ℕ) :
    topic.deliver.pending k = topic.pending k ∨ ∃ n ∈ topic.ready.head?, n.1 = k ∧
      queueMaxsize ≤ (topic.streams k).queue.length ∧
      topic.pending k = {n.2} + topic.deliver.pending k := by
  rw [Topic.deliver]
  split
  · exact .inl rfl
  rename_i k' n ready hready
  split_ifs with hroom
  · left
    rw [pending, pending, hready, addressed_cons]
    dsimp only
    by_cases hk : k = k'
    · subst hk
      rw [Function.update_self, if_pos rfl, Stream.pending, Stream.pending]
      dsimp only
      rw [coe_concat]
      abel
    · rw [Function.update_of_ne hk, if_neg (Ne.symm hk), zero_add]
  · rw [pending, pending, hready, addressed_cons]
    by_cases hk : k' = k
    · subst hk
      refine .inr ⟨(k', n), rfl, rfl, not_lt.1 hroom, ?_⟩
      rw [if_pos rfl]
      abel
    · left
      rw [if_neg hk, zero_add]

/-- A queue that is full belongs to a stream that nobody reads. -/
theorem pending_deliver_of_mem (hguard : ∀ p ∈ topic.ready.head?, p.1 ∈ topic.live →
    (topic.streams p.1).queue.length < queueMaxsize) {k : ℕ} (hk : k ∈ topic.live) :
    topic.deliver.pending k = topic.pending k := by
  rcases pending_deliver topic k with heq | ⟨p, hp, rfl, hfull, -⟩
  · exact heq
  · exact absurd (hguard p hp hk) (not_lt.2 hfull)

theorem pending_deliver_of_zero (hzero : topic.pending k = 0) : topic.deliver.pending k = 0 := by
  rcases pending_deliver topic k with heq | ⟨p, -, -, -, heq⟩
  · exact heq.trans hzero
  · have hle : topic.deliver.pending k ≤ {p.2} + topic.deliver.pending k := Multiset.le_add_left _ _
    rwa [← heq, hzero, Multiset.le_zero] at hle

/-- `deliver` is about what has been handed to the event loop, and the queues. -/
theorem deliver_fields (topic : Topic δ) :
    topic.deliver = { topic with ready := topic.deliver.ready, streams := topic.deliver.streams } ∧
      ∀ k, (topic.deliver.streams k).replaying = (topic.streams k).replaying := by
  rw [Topic.deliver]
  split
  · exact ⟨rfl, fun _ => rfl⟩
  rename_i k n ready hready
  split_ifs
  · refine ⟨rfl, fun k' => ?_⟩
    dsimp only
    by_cases hk : k' = k
    · subst hk
      rw [Function.update_self]
    · rw [Function.update_of_ne hk]
  · exact ⟨rfl, fun _ => rfl⟩

theorem Bridged.deliver (h : topic.Bridged) (hguard : ∀ p ∈ topic.ready.head?, p.1 ∈ topic.live →
    (topic.streams p.1).queue.length < queueMaxsize) : topic.deliver.Bridged := by
  obtain ⟨heq, hreplaying⟩ := deliver_fields topic
  have hfield {α : Type} (f : Topic δ → α)
      (hf : ∀ ready streams, f { topic with ready, streams } = f topic) : f topic.deliver = f topic :=
    (congrArg f heq).trans (hf _ _)
  refine h.of_pending (hfield Topic.emitted fun _ _ => rfl) (hfield Topic.history fun _ _ => rfl) ?_
    (hfield Topic.published fun _ _ => rfl) (hfield Topic.live fun _ _ => rfl)
    (hfield Topic.running fun _ _ => rfl) (fun k hk => pending_deliver_of_mem hguard hk) fun k hk => ?_
  · rw [hfield Topic.unread fun _ _ => rfl]
    exact fun _ h => h
  · rw [hfield Topic.calls fun _ _ => rfl] at hk
    obtain ⟨hzero, hnot, hnone⟩ := h.fresh k hk
    rw [hfield Topic.subscribers fun _ _ => rfl, hreplaying]
    exact ⟨pending_deliver_of_zero hzero, hnot, hnone⟩

/-! ## Calls -/

theorem Bridged.call (h : topic.Bridged) : topic.call.Bridged := by
  have hnew : topic.pending topic.calls = 0 := (h.fresh _ le_rfl).1
  have hmem {k : ℕ} (hk : k ∈ insert topic.calls topic.live) : k ∈ topic.live ∨ topic.pending k = 0 := by
    rcases Finset.mem_insert.1 hk with rfl | hk
    · exact .inr hnew
    · exact .inl hk
  rw [Topic.call]
  refine ⟨⟨h.lt.1, fun k hk n hn => ?_, h.lt.2.2⟩, h.history, h.nodup, fun k hk => ?_,
    fun k hk k' hk' hne n hn hn' => ?_, Finset.insert_subset_insert _ h.live,
    fun k hk => h.fresh k ((Nat.le_succ _).trans hk)⟩
  · rcases hmem hk with hk | hzero
    · exact h.lt.2.1 k hk n hn
    · exact absurd (hzero ▸ hn) (Multiset.notMem_zero n)
  · rcases hmem hk with hk | hzero
    · exact h.once k hk
    · have hpublished : ((topic.published : Multiset ℕ) + topic.pending k).Nodup := by
        rw [hzero, add_zero]
        exact h.nodup
      exact hpublished
  · rcases hmem hk with hk | hzero
    · rcases hmem hk' with hk' | hzero
      · exact h.apart k hk k' hk' hne n hn hn'
      · exact absurd (hzero ▸ hn') (Multiset.notMem_zero n)
    · exact absurd (hzero ▸ hn) (Multiset.notMem_zero n)

/-- A stream that has brought everything is no longer read. -/
theorem Bridged.erase (h : topic.Bridged) {running : Finset ℕ}
    (hrunning : topic.live.erase k ⊆ running) :
    { topic with running := running, live := topic.live.erase k }.Bridged := by
  have hmem {k' : ℕ} (hk' : k' ∈ topic.live.erase k) : k' ∈ topic.live := Finset.mem_of_mem_erase hk'
  exact ⟨⟨h.lt.1, fun k' hk' => h.lt.2.1 k' (hmem hk'), h.lt.2.2⟩, h.history, h.nodup,
    fun k' hk' => h.once k' (hmem hk'), fun k' hk' k'' hk'' => h.apart k' (hmem hk') k'' (hmem hk''),
    hrunning, h.fresh⟩

theorem Bridged.fail (h : topic.Bridged) (k : ℕ) : (topic.fail k).Bridged :=
  h.erase ((Finset.erase_subset _ _).trans h.live)

theorem Bridged.respond (h : topic.Bridged) (k : ℕ) : (topic.respond k).Bridged :=
  h.erase (Finset.erase_subset_erase _ h.live)

/-- The event that comes to the bus is no longer under way. -/
theorem pending_receive {wire : List ℕ} (hwire : (topic.streams k).wire = n :: wire) (k' : ℕ) :
    topic.pending k' = (if k' = k then {n} else 0) + { topic with
      streams := Function.update topic.streams k { topic.streams k with wire }
      published := topic.published ++ [n] }.pending k' := by
  rw [pending, pending]
  dsimp only
  by_cases hk : k' = k
  · subst hk
    rw [Function.update_self, if_pos rfl, Stream.pending, Stream.pending, hwire, coe_cons]
    abel
  · rw [Function.update_of_ne hk, if_neg hk, zero_add]

theorem Bridged.receive (h : topic.Bridged) (k : ℕ) : (topic.receive k).Bridged := by
  rw [Topic.receive]
  split
  swap
  · exact h
  rename_i n wire hwire
  split_ifs with hlive
  swap
  · exact h
  have hother {k' : ℕ} (hk' : k' ≠ k) : { topic with
      streams := Function.update topic.streams k { topic.streams k with wire }
      published := topic.published ++ [n] }.pending k' = topic.pending k' := by
    rw [pending_receive hwire k', if_neg hk', zero_add]
  have hthis : topic.pending k = {n} + { topic with
      streams := Function.update topic.streams k { topic.streams k with wire }
      published := topic.published ++ [n] }.pending k := by
    rw [pending_receive hwire k, if_pos rfl]
  have hmem : n ∈ topic.pending k := hthis ▸ Multiset.mem_add.2 (.inl (Multiset.mem_singleton_self n))
  have hsub {k' n' : ℕ} (hn' : n' ∈ { topic with
      streams := Function.update topic.streams k { topic.streams k with wire }
      published := topic.published ++ [n] }.pending k') : n' ∈ topic.pending k' := by
    by_cases hk' : k' = k
    · subst hk'
      exact hthis ▸ Multiset.mem_add.2 (.inr hn')
    · exact hother hk' ▸ hn'
  refine ⟨⟨fun n' hn' => ?_, fun k' hk' n' hn' => h.lt.2.1 k' hk' n' (hsub hn'), h.lt.2.2⟩, h.history, ?_,
    fun k' hk' => ?_, fun k' hk' k'' hk'' hne n' hn' hn'' =>
      h.apart k' hk' k'' hk'' hne n' (hsub hn') (hsub hn''), h.live, fun k' hk' => ?_⟩
  · rcases List.mem_append.1 hn' with hn' | hn'
    · exact h.lt.1 n' hn'
    · obtain rfl := List.mem_singleton.1 hn'
      exact h.lt.2.1 k hlive n' hmem
  · rw [← Multiset.coe_nodup, coe_concat]
    exact Multiset.nodup_of_le (Multiset.add_le_add_left (Multiset.singleton_le.2 hmem)) (h.once k hlive)
  · by_cases hk : k' = k
    · subst hk
      have honce := h.once k' hlive
      rw [hthis, ← add_assoc] at honce
      exact honce
    · rw [hother hk]
      dsimp only
      rw [coe_concat, add_right_comm]
      refine Multiset.nodup_add.2 ⟨h.once k' hk', Multiset.nodup_singleton n, ?_⟩
      rw [Multiset.disjoint_singleton, Multiset.mem_add, not_or]
      refine ⟨fun hpub => ?_, h.apart k hlive k' hk' (Ne.symm hk) n hmem⟩
      exact Multiset.disjoint_left.1 (Multiset.nodup_add.1 (h.once k hlive)).2.2 hpub hmem
  · obtain ⟨hzero, hnot, hnone⟩ := h.fresh k' hk'
    have hk : k' ≠ k := by
      rintro rfl
      exact absurd (hzero ▸ hmem) (Multiset.notMem_zero n)
    refine ⟨(hother hk).trans hzero, hnot, ?_⟩
    dsimp only
    rw [Function.update_of_ne hk]
    exact hnone

/-! ## New events -/

/-- Some events that no stream has taken are taken by one, which may be unread. -/
theorem Bridged.take {topic' : Topic δ} (h : topic.Bridged) {ns : Multiset ℕ} (hns : ns.Nodup)
    (hlt : ∀ n ∈ ns, n < topic.emitted.length) (htaken : ∀ n ∈ ns, k ∈ topic.live → ¬topic.Taken n)
    (hemitted : topic'.emitted = topic.emitted) (hhistory : topic'.history = topic.history)
    (hunread : topic'.unread ⊆ topic.unread) (hpublished : topic'.published = topic.published)
    (hlive : topic'.live = topic.live) (hrunning : topic'.running = topic.running)
    (hthis : topic'.pending k = topic.pending k + ns)
    (hother : ∀ k' ∈ topic.live, k' ≠ k → topic'.pending k' = topic.pending k')
    (hfresh : ∀ k', topic'.calls ≤ k' →
      topic'.pending k' = 0 ∧ k' ∉ topic'.subscribers ∧ (topic'.streams k').replaying = none) :
    topic'.Bridged := by
  have hdisjoint {n : ℕ} (hn : n ∈ ns) (hk : k ∈ topic.live) :
      n ∉ topic.published ∧ ∀ k' ∈ topic.live, n ∉ topic.pending k' :=
    ⟨fun hpub => htaken n hn hk (.inl hpub), fun k' hk' hn' => htaken n hn hk (.inr ⟨k', hk', hn'⟩)⟩
  -- What is new is on its way in one stream only.
  have hmem {k' n : ℕ} (hk' : k' ∈ topic.live) (hn : n ∈ topic'.pending k') :
      n ∈ topic.pending k' ∨ k' = k ∧ n ∈ ns := by
    by_cases hk : k' = k
    · subst hk
      rw [hthis] at hn
      exact (Multiset.mem_add.1 hn).imp_right fun hn => ⟨rfl, hn⟩
    · exact .inl (hother k' hk' hk ▸ hn)
  refine ⟨?_, hhistory ▸ h.history, hpublished ▸ h.nodup, fun k' hk' => ?_,
    fun k' hk' k'' hk'' hne n hn hn' => ?_, ?_, hfresh⟩
  · rw [hemitted, hhistory, hpublished, hlive]
    refine ⟨h.lt.1, fun k' hk' n hn => ?_, h.lt.2.2.1, fun n hn => h.lt.2.2.2 n (hunread hn)⟩
    rcases hmem hk' hn with hn | ⟨-, hn⟩
    · exact h.lt.2.1 k' hk' n hn
    · exact hlt n hn
  · rw [hlive] at hk'
    rw [hpublished]
    by_cases hk : k' = k
    · subst hk
      rw [hthis, ← add_assoc]
      refine Multiset.nodup_add.2 ⟨h.once k' hk', hns, Multiset.disjoint_right.2 fun hn hn' => ?_⟩
      rcases Multiset.mem_add.1 hn' with hpub | hpending
      · exact (hdisjoint hn hk').1 hpub
      · exact (hdisjoint hn hk').2 k' hk' hpending
    · rw [hother k' hk' hk]
      exact h.once k' hk'
  · rw [hlive] at hk' hk''
    rcases hmem hk' hn with hn | ⟨rfl, hn⟩ <;> rcases hmem hk'' hn' with hn' | ⟨rfl, hn'⟩
    · exact h.apart k' hk' k'' hk'' hne n hn hn'
    · exact (hdisjoint hn' hk'').2 k' hk' hn
    · exact (hdisjoint hn hk').2 k'' hk'' hn'
    · exact hne rfl
  · rw [hlive, hrunning]
    exact h.live

/-- The history is what a stream begins with. -/
theorem pending_replay (hk : k ∈ topic.subscribers ∧ (topic.streams k).replaying = none) (k' : ℕ) :
    (topic.replay k).pending k' = topic.pending k' + if k' = k then (topic.history : Multiset ℕ) else 0 := by
  rw [Topic.replay, if_pos hk, pending, pending]
  dsimp only
  by_cases hk' : k' = k
  · subst hk'
    rw [Function.update_self, if_pos rfl, Stream.pending, Stream.pending, hk.2]
    dsimp only [Option.getD_some, Option.getD_none]
    rw [Multiset.coe_nil]
    abel
  · rw [Function.update_of_ne hk', if_neg hk', add_zero]

theorem Bridged.replay (h : topic.Bridged)
    (hfree : k ∈ topic.live → ∀ n ∈ topic.history, ¬topic.Taken n) : (topic.replay k).Bridged := by
  by_cases hk : k ∈ topic.subscribers ∧ (topic.streams k).replaying = none
  swap
  · rwa [Topic.replay, if_neg hk]
  have hpending := pending_replay hk
  rw [Topic.replay, if_pos hk] at hpending ⊢
  refine h.take (k := k) (Multiset.coe_nodup.2 h.history) h.lt.2.2.1
    (fun n hn hlive => hfree hlive n hn) rfl rfl (fun _ h => h) rfl rfl rfl ?_ (fun k' _ hne => ?_)
    fun k' hk' => ?_
  · rw [hpending, if_pos rfl]
  · rw [hpending, if_neg hne, add_zero]
  · obtain ⟨hzero, hnot, hnone⟩ := h.fresh k' hk'
    have hne : k' ≠ k := fun heq => hnot (heq ▸ hk.1)
    refine ⟨?_, hnot, ?_⟩
    · rw [hpending, if_neg hne, add_zero, hzero]
    · dsimp only
      rw [Function.update_of_ne hne]
      exact hnone

theorem addressed_map (k n : ℕ) {ks : List ℕ} (hks : ks.Nodup) :
    addressed k (ks.map (·, n)) = if k ∈ ks then {n} else 0 := by
  induction ks with
  | nil => rfl
  | cons k' ks ih =>
    rw [List.nodup_cons] at hks
    rw [List.map_cons, addressed_cons, ih hks.2]
    by_cases hk : k' = k
    · subst hk
      rw [if_pos rfl, if_neg hks.1, if_pos List.mem_cons_self, add_zero]
    · rw [if_neg hk, zero_add]
      simp only [List.mem_cons, Ne.symm hk, false_or]

theorem pending_read (h : topic.Bridged) (k n : ℕ) : { topic with
    unread := topic.unread.erase n
    due := topic.due ++ ((List.range topic.calls).filter (· ∈ topic.subscribers)).map (·, n) }.pending k =
      topic.pending k + if k ∈ topic.subscribers then {n} else 0 := by
  rw [pending, pending]
  dsimp only
  have hlt : k < topic.calls ∧ k ∈ topic.subscribers ↔ k ∈ topic.subscribers :=
    and_iff_right_of_imp fun hk => not_le.1 fun hle => (h.fresh k hle).2.1 hk
  rw [addressed_append, addressed_map _ _ (List.nodup_range.filter _)]
  simp only [List.mem_filter, List.mem_range, decide_eq_true_eq, hlt]
  abel

/-- An event is handed to one stream that is read, or to none. -/
theorem Bridged.read (h : topic.Bridged) (hone : n ∈ topic.unread → topic.listening.card ≤ 1)
    (hfree : n ∈ topic.unread → ¬topic.Taken n) : (topic.read n).Bridged := by
  rw [Topic.read]
  split_ifs with hunread
  swap
  · exact h
  have hfresh (k : ℕ) (hk : topic.calls ≤ k) :
      topic.pending k + (if k ∈ topic.subscribers then {n} else 0) = 0 ∧ k ∉ topic.subscribers ∧
        (topic.streams k).replaying = none := by
    obtain ⟨hzero, hnot, hnone⟩ := h.fresh k hk
    rw [hzero, if_neg hnot]
    exact ⟨rfl, hnot, hnone⟩
  have hlone {k : ℕ} (hk : k ∉ topic.listening) (hlive : k ∈ topic.live) :
      topic.pending k + (if k ∈ topic.subscribers then {n} else 0) = topic.pending k := by
    rw [if_neg fun hsub => hk (Finset.mem_inter.2 ⟨hlive, hsub⟩), add_zero]
  -- No stream that is read takes the event up, or one does.
  rcases Finset.eq_empty_or_nonempty topic.listening with hempty | ⟨k, hk⟩
  · refine h.of_pending rfl rfl (fun _ => List.mem_of_mem_erase) rfl rfl rfl (fun k hk => ?_)
      fun k hk => (pending_read h k n).symm ▸ hfresh k hk
    rw [pending_read h, hlone (hempty ▸ Finset.notMem_empty k) hk]
  · refine h.take (k := k) (Multiset.nodup_singleton n) (fun n' hn' => ?_) (fun n' hn' _ => ?_)
      rfl rfl (fun _ => List.mem_of_mem_erase) rfl rfl rfl ?_ (fun k' hk' hne => ?_)
      fun k hk => (pending_read h k n).symm ▸ hfresh k hk
    · rw [Multiset.mem_singleton.1 hn']
      exact h.lt.2.2.2 n hunread
    · rw [Multiset.mem_singleton.1 hn']
      exact hfree hunread
    · rw [pending_read h, if_pos (Finset.mem_inter.1 hk).2]
    · rw [pending_read h, hlone (fun hk'' => hne ?_) hk']
      exact Finset.card_le_one.1 (hone hunread) k' hk'' k hk

theorem Bridged.emit (h : topic.Bridged) (event : ProgressEvent δ) : (topic.emit event).Bridged := by
  rw [Topic.emit]
  split_ifs with hrunning
  · exact h
  dsimp only
  have hlt {n : ℕ} (hn : n < topic.emitted.length) : n < (topic.emitted ++ [event]).length := by
    rw [List.length_append]
    omega
  have hconcat {ns : List ℕ} (hns : ∀ n ∈ ns, n < topic.emitted.length) :
      ∀ n ∈ ns ++ [topic.emitted.length], n < (topic.emitted ++ [event]).length := by
    intro n hn
    rcases List.mem_append.1 hn with hn | hn
    · exact hlt (hns n hn)
    · rw [List.mem_singleton.1 hn, List.length_append, List.length_singleton]
      omega
  -- However many old events the history drops, what it keeps are numbers of events.
  generalize topic.history.length + 1 - eventsMaxlen = d
  refine ⟨⟨fun n hn => hlt (h.lt.1 n hn), fun k hk n hn => hlt (h.lt.2.1 k hk n hn),
    fun n hn => hconcat h.lt.2.2.1 n (List.mem_of_mem_drop hn), hconcat h.lt.2.2.2⟩, ?_, h.nodup,
    h.once, h.apart, h.live, h.fresh⟩
  refine (List.nodup_append.2 ⟨h.history, List.nodup_singleton _, ?_⟩).sublist (List.drop_sublist _ _)
  intro n hn n' hn'
  rw [List.mem_singleton.1 hn']
  exact (h.lt.2.2.1 n hn).ne

end Topic

end Dnlab.Gui.Bridge
