import Dnlab.Gui.MultinodeService.Bridge

/-!
# Remote events are relayed once

Every stream begins with the whole history of the controller, whichever call its
events are of: what a call brought to the bus, the next one brings once more
(`not_exactlyOnce_nextCall`), and what a stream has yet to bring when the response is
there is lost. Whether that happens depends on when the streams open and close, to
which a flag is kept beside the topic (`Watched`). If each stream opens while nothing
is emitted, only the first finds events in the history, every later event comes while
one stream is open, and a stream closes when all has arrived (`Guarded`), then each
event comes to the bus once (`relayedOnce_run`): those from before the first stream by
its replay, the others by its queue.
-/

namespace Dnlab.Gui.Bridge

/-- A topic, and whether a stream that is read has looked at the history. -/
structure Watched (δ : Type) where
  topic : Topic δ
  opened : Bool

namespace Watched

variable {δ : Type}

def new : Watched δ := ⟨Topic.new, false⟩

def step (w : Watched δ) (event : Topic.Event δ) : Watched δ :=
  ⟨w.topic.step event,
    match event with
    | .replay k => w.opened || decide (k ∈ w.topic.listening)
    | _ => w.opened⟩

/-- When the streams open and close. The controller adds a queue when no event is on its way to the
    queues, and looks at its history when nothing was emitted yet, or no stream has done so before.
    When an event is emitted, one stream is open; or none, as long as none was, and then the history
    has room. A stream closes when nothing is on its way in it or to it, and the last call ends after
    a stream has opened. A queue has room for what comes. -/
def Guarded (w : Watched δ) : Topic.Event δ → Prop
  | .accept k => k ∈ w.topic.live → w.topic.unread = []
  | .replay k => k ∈ w.topic.listening → (w.topic.streams k).replaying = none →
      w.topic.emitted = [] ∨ w.opened = false
  | .emit _ => w.topic.running ≠ ∅ → w.topic.listening.card = w.opened.toNat ∧
      (w.opened = false → w.topic.history.length < eventsMaxlen)
  | .deliver => ∀ p ∈ w.topic.ready.head?, p.1 ∈ w.topic.live →
      (w.topic.streams p.1).queue.length < queueMaxsize
  | .disconnect k => k ∈ w.topic.listening → w.topic.unread = []
  | .fail k => (k ∈ w.topic.live → w.topic.pending k = 0) ∧
      (k ∈ w.topic.listening → w.topic.unread = [])
  | .respond k => (k ∈ w.topic.live → w.topic.pending k = 0) ∧
      (k ∈ w.topic.listening → w.topic.unread = []) ∧
      (w.topic.running ⊆ {k} → w.topic.emitted = [] ∨ w.opened = true)
  | _ => True

instance (w : Watched δ) (event : Topic.Event δ) : Decidable (w.Guarded event) := by
  cases event <;> unfold Guarded <;> infer_instance

/-! ## What a step keeps -/

/-- Until a stream has opened, no event is on its way to the bus; then all are that have looked for
    their queues. -/
structure Kept (w : Watched δ) : Prop where
  bridged : w.topic.Bridged
  unread : w.topic.unread.Nodup ∧ ∀ n ∈ w.topic.unread, ¬w.topic.Taken n
  listening : w.topic.unread ≠ [] → w.topic.listening.card = w.opened.toNat
  before : w.opened = false → (∀ n, ¬w.topic.Taken n) ∧
    ∀ n < w.topic.emitted.length, n ∈ w.topic.history
  covered : w.opened = true → ∀ n < w.topic.emitted.length, w.topic.Taken n ∨ n ∈ w.topic.unread
  replayed : ∀ k ∈ w.topic.live, (w.topic.streams k).replaying ≠ none → w.opened = true
  idle : w.topic.running = ∅ → ∀ n < w.topic.emitted.length, n ∈ w.topic.published

variable {w : Watched δ} {k n : ℕ}

theorem kept_new : (new : Watched δ).Kept where
  bridged := Topic.bridged_new
  unread := ⟨List.nodup_nil, fun _ h => absurd h List.not_mem_nil⟩
  listening h := absurd rfl h
  before _ := ⟨fun _ => Or.rec (fun h => absurd h List.not_mem_nil)
    fun ⟨_, h, _⟩ => absurd h (Finset.notMem_empty _), fun _ h => absurd h (Nat.not_lt_zero _)⟩
  covered h := nomatch h
  replayed _ h := absurd h (Finset.notMem_empty _)
  idle _ _ h := absurd h (Nat.not_lt_zero _)

/-- A step that takes nothing up and loses nothing keeps all, if the streams that are open stay open
    while an event looks for its queues. -/
theorem Kept.of_taken {topic : Topic δ} (h : w.Kept) (hbridged : topic.Bridged)
    (htaken : ∀ n, topic.Taken n ↔ w.topic.Taken n) (hunread : topic.unread = w.topic.unread)
    (hemitted : topic.emitted = w.topic.emitted) (hhistory : topic.history = w.topic.history)
    (hlistening : w.topic.unread ≠ [] → topic.listening = w.topic.listening)
    (hreplayed : ∀ k ∈ topic.live, (topic.streams k).replaying ≠ none →
      k ∈ w.topic.live ∧ (w.topic.streams k).replaying ≠ none)
    (hidle : topic.running = ∅ → ∀ n < w.topic.emitted.length, n ∈ topic.published) :
    Kept ⟨topic, w.opened⟩ where
  bridged := hbridged
  unread := by
    rw [hunread]
    exact ⟨h.unread.1, fun n hn htk => h.unread.2 n hn ((htaken n).1 htk)⟩
  listening hne := by
    dsimp only at hne ⊢
    rw [hunread] at hne
    rw [hlistening hne]
    exact h.listening hne
  before hopened := by
    dsimp only
    rw [hemitted, hhistory]
    exact ⟨fun n htk => (h.before hopened).1 n ((htaken n).1 htk), (h.before hopened).2⟩
  covered hopened n hn := by
    dsimp only at hn ⊢
    rw [hemitted] at hn
    rw [hunread, htaken]
    exact h.covered hopened n hn
  replayed k hk hne := by
    obtain ⟨hk', hne'⟩ := hreplayed k hk hne
    exact h.replayed k hk' hne'
  idle := by
    dsimp only
    rw [hemitted]
    exact hidle

theorem Kept.moveOn {topic : Topic δ} (h : w.Kept) (hmove : w.topic.MovesOn topic) :
    Kept ⟨topic, w.opened⟩ := by
  have hbridged := h.bridged.moveOn hmove
  rcases hmove with rfl | ⟨k, stream, hstream, hreplaying, rfl⟩
  · exact h
  · refine h.of_taken hbridged
      (Topic.taken_congr rfl rfl fun k' _ => Topic.pending_update hstream k') rfl rfl rfl
      (fun _ => rfl) (fun k' hk' hne => ⟨hk', ?_⟩) h.idle
    dsimp only at hne
    by_cases hk : k' = k
    · exact hk ▸ hreplaying
    · rwa [Function.update_of_ne hk] at hne

theorem Kept.accept (h : w.Kept) (hguard : w.Guarded (.accept k)) :
    Kept ⟨w.topic.accept k, w.opened⟩ := by
  have hbridged := h.bridged.accept k
  rw [Topic.accept] at hbridged ⊢
  split_ifs at hbridged ⊢
  · refine h.of_taken hbridged (fun _ => Iff.rfl) rfl rfl rfl (fun hne => ?_)
      (fun k' hk' hne => ⟨hk', hne⟩) h.idle
    -- an event looks for its queues, so that the stream is none of those that are read
    have hk : k ∉ w.topic.live := fun hk => hne (hguard hk)
    exact Finset.inter_insert_of_notMem hk
  · exact h

theorem Kept.disconnect (h : w.Kept) (hguard : w.Guarded (.disconnect k)) :
    Kept ⟨w.topic.disconnect k, w.opened⟩ := by
  have hbridged := h.bridged.disconnect k
  rw [Topic.disconnect] at hbridged ⊢
  split_ifs at hbridged ⊢
  · refine h.of_taken hbridged (fun _ => Iff.rfl) rfl rfl rfl (fun hne => ?_)
      (fun k' hk' hne => ⟨hk', hne⟩) h.idle
    have hk : k ∉ w.topic.listening := fun hk => hne (hguard hk)
    rw [Topic.listening, Finset.inter_erase]
    exact Finset.erase_eq_of_notMem hk
  · exact h

theorem Kept.send (h : w.Kept) (k n : ℕ) : Kept ⟨w.topic.send k n, w.opened⟩ := by
  have hbridged := h.bridged.send k n
  have hpending := Topic.pending_send w.topic k n
  rw [Topic.send] at hbridged hpending ⊢
  split_ifs at hbridged hpending ⊢
  · exact h.of_taken hbridged (Topic.taken_congr rfl rfl fun k' _ => hpending k') rfl rfl rfl
      (fun _ => rfl) (fun k' hk' hne => ⟨hk', hne⟩) h.idle
  · exact h

theorem Kept.deliver (h : w.Kept) (hguard : w.Guarded .deliver) :
    Kept ⟨w.topic.deliver, w.opened⟩ := by
  have hbridged := h.bridged.deliver hguard
  have hpending (k) (hk : k ∈ w.topic.live) := Topic.pending_deliver_of_mem hguard hk
  obtain ⟨heq, hreplaying⟩ := Topic.deliver_fields w.topic
  have hfield {α : Type} (f : Topic δ → α)
      (hf : ∀ ready streams, f { w.topic with ready, streams } = f w.topic) :
      f w.topic.deliver = f w.topic :=
    (congrArg f heq).trans (hf _ _)
  refine h.of_taken hbridged (Topic.taken_congr (hfield Topic.published fun _ _ => rfl)
      (hfield Topic.live fun _ _ => rfl) hpending) (hfield Topic.unread fun _ _ => rfl)
    (hfield Topic.emitted fun _ _ => rfl) (hfield Topic.history fun _ _ => rfl)
    (fun _ => hfield Topic.listening fun _ _ => rfl) (fun k hk hne => ?_) ?_
  · rw [hfield Topic.live fun _ _ => rfl] at hk
    exact ⟨hk, hreplaying k ▸ hne⟩
  · rw [hfield Topic.running fun _ _ => rfl, hfield Topic.published fun _ _ => rfl]
    exact h.idle

theorem Kept.call (h : w.Kept) : Kept ⟨w.topic.call, w.opened⟩ := by
  obtain ⟨hzero, hnot, hnone⟩ := h.bridged.fresh _ le_rfl
  refine h.of_taken h.bridged.call (fun n => ?_) rfl rfl rfl (fun _ => ?_) (fun k hk hne => ?_)
    fun hidle => absurd hidle (Finset.insert_ne_empty _ _)
  · refine or_congr_right ⟨?_, fun ⟨k, hk, hn⟩ => ⟨k, Finset.mem_insert_of_mem hk, hn⟩⟩
    rintro ⟨k, hk, hn⟩
    rcases Finset.mem_insert.1 hk with rfl | hk
    · exact absurd (hzero ▸ hn) (Multiset.notMem_zero n)
    · exact ⟨k, hk, hn⟩
  · exact Finset.insert_inter_of_notMem hnot
  · rcases Finset.mem_insert.1 hk with rfl | hk
    · exact absurd hnone hne
    · exact ⟨hk, hne⟩

/-- A stream that has brought everything is no longer read. -/
theorem taken_erase_iff {topic : Topic δ} {k : ℕ} (hzero : k ∈ topic.live → topic.pending k = 0)
    {running : Finset ℕ} (n : ℕ) :
    { topic with running := running, live := topic.live.erase k }.Taken n ↔ topic.Taken n := by
  refine or_congr_right ⟨fun ⟨k', hk', hn⟩ => ⟨k', Finset.mem_of_mem_erase hk', hn⟩, ?_⟩
  rintro ⟨k', hk', hn⟩
  refine ⟨k', Finset.mem_erase.2 ⟨?_, hk'⟩, hn⟩
  rintro rfl
  rw [hzero hk'] at hn
  exact Multiset.notMem_zero n hn

theorem listening_erase {topic : Topic δ} {k : ℕ} (hk : k ∉ topic.listening) {running : Finset ℕ} :
    { topic with running := running, live := topic.live.erase k }.listening = topic.listening := by
  rw [Topic.listening, Finset.erase_inter]
  exact Finset.erase_eq_of_notMem hk

theorem Kept.fail (h : w.Kept) (hguard : w.Guarded (.fail k)) :
    Kept ⟨w.topic.fail k, w.opened⟩ :=
  h.of_taken (h.bridged.fail k) (taken_erase_iff hguard.1) rfl rfl rfl
    (fun hne => listening_erase fun hk => hne (hguard.2 hk))
    (fun _ hk' hne => ⟨Finset.mem_of_mem_erase hk', hne⟩) h.idle

theorem Kept.respond (h : w.Kept) (hguard : w.Guarded (.respond k)) :
    Kept ⟨w.topic.respond k, w.opened⟩ := by
  obtain ⟨hzero, hclosing, hlast⟩ := hguard
  refine h.of_taken (h.bridged.respond k) (taken_erase_iff hzero) rfl rfl rfl
    (fun hne => listening_erase fun hk => hne (hclosing hk))
    (fun _ hk' hne => ⟨Finset.mem_of_mem_erase hk', hne⟩) fun hidle n hn => ?_
  -- no other stream is read, and this one has brought everything
  have hrunning : w.topic.running ⊆ {k} :=
    Finset.subset_singleton_iff.2 ((Finset.erase_eq_empty_iff _ _).1 hidle)
  have hlive : ∀ k' ∈ w.topic.live, k' = k := fun k' hk' =>
    Finset.mem_singleton.1 (hrunning (h.bridged.live hk'))
  rcases hlast hrunning with hnone | hopened
  · rw [hnone] at hn
    exact absurd hn (Nat.not_lt_zero n)
  · have hall : w.topic.unread = [] := by
      by_contra hne
      have hcard := h.listening hne
      rw [hopened] at hcard
      obtain ⟨k', hk'⟩ := Finset.card_pos.1 (by rw [hcard]; exact Nat.one_pos)
      obtain rfl := hlive k' (Finset.mem_inter.1 hk').1
      exact hne (hclosing hk')
    -- every event is on the bus: none is pending or looks for its queues
    rcases h.covered hopened n hn with (hpub | ⟨k', hk', hmem⟩) | hmem
    · exact hpub
    · obtain rfl := hlive k' hk'
      rw [hzero hk'] at hmem
      exact absurd hmem (Multiset.notMem_zero n)
    · rw [hall] at hmem
      exact absurd hmem List.not_mem_nil

theorem Kept.receive (h : w.Kept) (k : ℕ) : Kept ⟨w.topic.receive k, w.opened⟩ := by
  have hbridged := h.bridged.receive k
  rw [Topic.receive] at hbridged ⊢
  split at hbridged
  swap
  · exact h
  rename_i n wire hwire
  split_ifs at hbridged ⊢ with hlive
  swap
  · exact h
  have hpending := Topic.pending_receive hwire
  refine h.of_taken hbridged (fun n' => ?_) rfl rfl rfl (fun _ => rfl) (fun k' hk' hne => ⟨hk', ?_⟩)
    fun hidle n' hn' => List.mem_append_left _ (h.idle hidle n' hn')
  · simp only [Topic.Taken, hpending, Multiset.mem_add, List.mem_append, List.mem_singleton]
    constructor
    · rintro ((hpub | rfl) | ⟨k', hk', hn⟩)
      · exact .inl hpub
      · exact .inr ⟨k, hlive, .inl (by rw [if_pos rfl]; exact Multiset.mem_singleton_self n')⟩
      · exact .inr ⟨k', hk', .inr hn⟩
    · rintro (hpub | ⟨k', hk', hn | hn⟩)
      · exact .inl (.inl hpub)
      · split_ifs at hn
        · exact .inl (.inr (Multiset.mem_singleton.1 hn))
        · exact absurd hn (Multiset.notMem_zero n')
      · exact .inr ⟨k', hk', hn⟩
  · dsimp only at hne
    by_cases hk : k' = k
    · subst hk
      rwa [Function.update_self] at hne
    · rwa [Function.update_of_ne hk] at hne

theorem Kept.emit (h : w.Kept) {event : ProgressEvent δ} (hguard : w.Guarded (.emit event)) :
    Kept ⟨w.topic.emit event, w.opened⟩ := by
  have hbridged := h.bridged.emit event
  rw [Topic.emit] at hbridged ⊢
  split_ifs at hbridged ⊢ with hrunning
  · exact h
  obtain ⟨hcard, hroom⟩ := hguard hrunning
  have htaken (n : ℕ) (hn : w.topic.Taken n) : n < w.topic.emitted.length := by
    rcases hn with hpub | ⟨k, hk, hn⟩
    · exact h.bridged.lt.1 n hpub
    · exact h.bridged.lt.2.1 k hk n hn
  have hlast {n : ℕ} (hn : n < (w.topic.emitted ++ [event]).length) :
      n < w.topic.emitted.length ∨ n = w.topic.emitted.length := by
    rw [List.length_append, List.length_singleton] at hn
    omega
  exact
    { bridged := hbridged
      unread := by
        refine ⟨List.nodup_append.2 ⟨h.unread.1, List.nodup_singleton _, fun n hn n' hn' => ?_⟩,
          fun n hn htk => ?_⟩
        · rw [List.mem_singleton.1 hn']
          exact (h.bridged.lt.2.2.2 n hn).ne
        · rcases List.mem_append.1 hn with hn | hn
          · exact h.unread.2 n hn htk
          · exact absurd (htaken n htk) (by rw [List.mem_singleton.1 hn]; exact lt_irrefl _)
      listening := fun _ => hcard
      before := fun hopened => by
        refine ⟨(h.before hopened).1, fun n hn => ?_⟩
        have hroom := hroom hopened
        have hdrop : w.topic.history.length + 1 - eventsMaxlen = 0 := by omega
        dsimp only
        rw [hdrop, List.drop_zero, List.mem_append, List.mem_singleton]
        exact (hlast hn).imp_left ((h.before hopened).2 n)
      covered := fun hopened n hn => by
        rcases hlast hn with hn | rfl
        · exact (h.covered hopened n hn).imp_right (List.mem_append_left _)
        · exact .inr (List.mem_append_right _ (List.mem_singleton_self _))
      replayed := h.replayed
      idle := fun hidle => absurd hidle hrunning }

/-- No stream has looked at the history while one is about to, if there is anything in it. -/
theorem Kept.free (h : w.Kept) (hopening : w.topic.emitted = [] ∨ w.opened = false) {n : ℕ}
    (hn : n < w.topic.emitted.length) : ¬w.topic.Taken n := by
  rcases hopening with hnone | hopened
  · rw [hnone] at hn
    exact absurd hn (Nat.not_lt_zero n)
  · exact (h.before hopened).1 n

/-- Nothing looks for its queues while the first stream opens. -/
theorem Kept.unread_eq_nil (h : w.Kept) (hk : k ∈ w.topic.listening)
    (hopening : w.topic.emitted = [] ∨ w.opened = false) : w.topic.unread = [] := by
  by_contra hne
  rcases hopening with hnone | hopened
  · obtain ⟨n, hn⟩ := List.exists_mem_of_ne_nil _ hne
    have hlt := h.bridged.lt.2.2.2 n hn
    rw [hnone] at hlt
    exact Nat.not_lt_zero n hlt
  · have hcard := h.listening hne
    rw [hopened] at hcard
    exact Finset.card_ne_zero_of_mem hk hcard

/-- The first stream brings what was emitted before it. -/
theorem Kept.replay (h : w.Kept) (hguard : w.Guarded (.replay k)) :
    Kept ⟨w.topic.replay k, w.opened || decide (k ∈ w.topic.listening)⟩ := by
  by_cases hreplay : k ∈ w.topic.subscribers ∧ (w.topic.streams k).replaying = none
  swap
  · -- the controller has looked at its history, or has no queue for the stream
    have hflag : decide (k ∈ w.topic.listening) = true → w.opened = true := by
      intro hk
      obtain ⟨hlive, hsub⟩ := Finset.mem_inter.1 (of_decide_eq_true hk)
      exact h.replayed k hlive fun hnone => hreplay ⟨hsub, hnone⟩
    have hopened : (w.opened || decide (k ∈ w.topic.listening)) = w.opened := by
      cases hk : decide (k ∈ w.topic.listening) with
      | false => exact Bool.or_false _
      | true => rw [hflag hk, Bool.or_true]
    rw [Topic.replay, if_neg hreplay, hopened]
    exact h
  have hpending := Topic.pending_replay hreplay
  have hbridged := h.bridged.replay (k := k) fun hlive n hn =>
    h.free (hguard (Finset.mem_inter.2 ⟨hlive, hreplay.1⟩) hreplay.2) (h.bridged.lt.2.2.1 n hn)
  rw [Topic.replay, if_pos hreplay] at hpending hbridged ⊢
  have htaken := Topic.taken_add hpending rfl rfl
  obtain ⟨hsub, hnone⟩ := hreplay
  by_cases hlive : k ∈ w.topic.live
  · -- the stream is the first, and the history has all events that were emitted
    have hk : k ∈ w.topic.listening := Finset.mem_inter.2 ⟨hlive, hsub⟩
    have hopening := hguard hk hnone
    have hunread := h.unread_eq_nil hk hopening
    rw [decide_eq_true hk, Bool.or_true]
    exact
      { bridged := hbridged
        unread := ⟨h.unread.1, fun n hn => absurd (hunread ▸ hn) List.not_mem_nil⟩
        listening := fun hne => absurd hunread hne
        before := fun hopened => by cases hopened
        covered := fun _ n hn => by
          left
          rcases hopening with hnone | hopened
          · dsimp only at hn
            rw [hnone] at hn
            exact absurd hn (Nat.not_lt_zero n)
          · exact (htaken n).2 (.inr ⟨⟨k, hlive, rfl⟩, (h.before hopened).2 n hn⟩)
        replayed := fun _ _ _ => rfl
        idle := h.idle }
  · have hk : k ∉ w.topic.listening := fun hk => hlive (Finset.mem_inter.1 hk).1
    rw [decide_eq_false hk, Bool.or_false]
    refine h.of_taken hbridged (fun n => (htaken n).trans (or_iff_left ?_)) rfl rfl rfl (fun _ => rfl)
      (fun k' hk' hne => ⟨hk', ?_⟩) h.idle
    · rintro ⟨⟨k', hk', rfl⟩, -⟩
      exact hlive hk'
    · have hne' : k' ≠ k := fun heq => hlive (heq ▸ hk')
      dsimp only at hne
      rwa [Function.update_of_ne hne'] at hne

/-- An event goes to the stream that is open; or to none, before the first. -/
theorem Kept.read (h : w.Kept) (n : ℕ) : Kept ⟨w.topic.read n, w.opened⟩ := by
  have hcard (hunread : n ∈ w.topic.unread) : w.topic.listening.card = w.opened.toNat :=
    h.listening (List.ne_nil_of_mem hunread)
  have hbridged := h.bridged.read (fun hunread => (hcard hunread).trans_le (Bool.toNat_le _))
    (h.unread.2 n)
  rw [Topic.read] at hbridged ⊢
  split_ifs at hbridged ⊢ with hunread
  swap
  · exact h
  have htaken := Topic.taken_add (Topic.pending_read h.bridged · n) rfl rfl
  -- one stream is read, if one has opened
  have hopen : (∃ k ∈ w.topic.live, k ∈ w.topic.subscribers) ↔ w.opened = true := by
    have hcard := hcard hunread
    constructor
    · rintro ⟨k, hlive, hsub⟩
      have hk : k ∈ w.topic.listening := Finset.mem_inter.2 ⟨hlive, hsub⟩
      by_contra hopened
      rw [Bool.eq_false_of_not_eq_true hopened] at hcard
      exact Finset.card_ne_zero_of_mem hk hcard
    · intro hopened
      rw [hopened] at hcard
      obtain ⟨k, hk⟩ := Finset.card_pos.1 (by rw [hcard]; exact Nat.one_pos)
      exact ⟨k, Finset.mem_inter.1 hk⟩
  exact
    { bridged := hbridged
      unread := by
        refine ⟨h.unread.1.erase n, fun n' hn' htk => ?_⟩
        rcases (htaken n').1 htk with htk | ⟨-, hn⟩
        · exact h.unread.2 n' (List.mem_of_mem_erase hn') htk
        · rw [Multiset.mem_singleton.1 hn] at hn'
          exact h.unread.1.not_mem_erase hn'
      listening := fun _ => hcard hunread
      before := fun hopened => by
        refine ⟨fun n' htk => ?_, (h.before hopened).2⟩
        rcases (htaken n').1 htk with htk | ⟨hsome, -⟩
        · exact (h.before hopened).1 n' htk
        · rw [hopen, show w.opened = false from hopened] at hsome
          cases hsome
      covered := fun hopened n' hn' => by
        by_cases hn : n' = n
        · exact .inl ((htaken n').2 (.inr ⟨hopen.2 hopened, Multiset.mem_singleton.2 hn⟩))
        · refine (h.covered hopened n' hn').imp (fun htk => (htaken n').2 (.inl htk)) fun hmem => ?_
          exact (List.mem_erase_of_ne hn).2 hmem
      replayed := h.replayed
      idle := h.idle }

theorem Kept.step (h : w.Kept) {event : Topic.Event δ} (hguard : w.Guarded event) :
    (w.step event).Kept := by
  rcases event with _ | k | k | k | k | k | k | k | k | event | n | ⟨k, n⟩ | _
  case call => exact h.call
  case receive => exact h.receive k
  case fail => exact h.fail hguard
  case respond => exact h.respond hguard
  case accept => exact h.accept hguard
  case replay => exact h.replay hguard
  case sendReplay => exact h.moveOn (Topic.movesOn_sendReplay w.topic k)
  case sendQueue => exact h.moveOn (Topic.movesOn_sendQueue w.topic k)
  case disconnect => exact h.disconnect hguard
  case emit => exact h.emit hguard
  case read => exact h.read n
  case send => exact h.send k n
  case deliver => exact h.deliver hguard

/-! ## Runs -/

/-- If the streams open and close as they should, each event of the controller comes to the bus
    once. -/
theorem relayedOnce_run {events : List (Topic.Event δ)}
    (h : Machine.GuardedRun step Guarded new events) :
    (Machine.run Topic.step Topic.new events).ExactlyOnce := by
  have hkept := h.invariant kept_new fun _ _ hkept hguard => hkept.step hguard
  have htopic : (Machine.run step new events).topic = Machine.run Topic.step Topic.new events :=
    Machine.map_run topic fun _ _ => rfl
  rw [← htopic]
  exact hkept.bridged.exactlyOnce hkept.idle

/-! ## Two calls -/

def event : ProgressEvent Unit := { phase := "vxlan", status := "ok", data := () }

/-- Two calls at once. The second one ends before its stream has opened, and the stream of the first
    opens after an event of the controller. -/
def twoCalls : List (Topic.Event Unit) :=
  [.call, .call, .emit event, .read 0, .accept 0, .replay 0, .emit event, .read 1, .send 0 1,
    .sendReplay 0, .receive 0, .deliver, .sendQueue 0, .receive 0, .respond 1, .respond 0]

theorem exactlyOnce_twoCalls : (Machine.run Topic.step Topic.new twoCalls).ExactlyOnce :=
  relayedOnce_run (by decide)

/-- A call whose event is brought to the bus, and another one, which brings it again. -/
def nextCall : List (Topic.Event Unit) :=
  [.call, .accept 0, .replay 0, .emit event, .read 0, .send 0 0, .deliver, .sendQueue 0, .receive 0,
    .respond 0, .call, .accept 1, .replay 1, .sendReplay 1, .receive 1, .respond 1]

theorem not_exactlyOnce_nextCall : ¬(Machine.run Topic.step Topic.new nextCall).ExactlyOnce := by
  intro h
  have hle := (h "lab").1.length_le
  revert hle
  decide

end Watched

end Dnlab.Gui.Bridge
