import Mathlib.Data.List.Nodup
import Station.Event.Bus

/-!
# Subscriptions

A bus keeps its handlers apart by type of event, in channels that are searched in no particular
order. To whoever calls it, it is one list of subscriptions in the order in which they were made
(`Ledger`): every history of calls gets the answers of that list (`answers_of_every_run`).

`Sim` is the relation between a bus and its list: a channel holds the subscriptions of its type, and
no two live subscriptions share an id. Each call keeps it (`Sim.perform`), whatever the order of the
channels, and so does each run.
-/

namespace Station

variable {τ : Type} {Event : τ → Type} {ω : Type} [DecidableEq τ]

/-! ## Channels -/

namespace Channel

variable {topic : τ} {channel : Channel Event ω} {channels rest : List (Channel Event ω)}
  {id : SubscriptionId}

/-- The ids of the subscriptions of a type of event. -/
def idsOf (topic : τ) (channels : List (Channel Event ω)) : List SubscriptionId :=
  (handlersOf topic channels).map (·.1)

theorem handlersOf_cons_self (channel : Channel Event ω) (rest : List (Channel Event ω)) :
    handlersOf channel.topic (channel :: rest) = channel.handlers := by
  rw [handlersOf, dif_pos rfl]

theorem handlersOf_cons_of_ne (h : channel.topic ≠ topic) (rest : List (Channel Event ω)) :
    handlersOf topic (channel :: rest) = handlersOf topic rest := by
  rw [handlersOf, dif_neg h]

theorem handlersOf_of_notMem (h : topic ∉ channels.map (·.topic)) :
    handlersOf topic channels = [] := by
  induction channels with
  | nil => rfl
  | cons channel rest ih =>
    rw [List.map_cons, List.mem_cons, not_or] at h
    rw [handlersOf_cons_of_ne (Ne.symm h.1), ih h.2]

theorem handlersOf_of_mem (hnodup : (channels.map (·.topic)).Nodup) (h : channel ∈ channels) :
    handlersOf channel.topic channels = channel.handlers := by
  induction channels with
  | nil => cases h
  | cons first rest ih =>
    rw [List.map_cons, List.nodup_cons] at hnodup
    rcases List.mem_cons.1 h with rfl | h
    · exact handlersOf_cons_self channel rest
    · have hne : first.topic ≠ channel.topic := by
        intro heq
        exact hnodup.1 (heq ▸ List.mem_map_of_mem h)
      rw [handlersOf_cons_of_ne hne, ih hnodup.2 h]

/-- The order of the channels does not matter. -/
theorem handlersOf_perm (hnodup : (channels.map (·.topic)).Nodup) (hperm : rest.Perm channels)
    (topic : τ) : handlersOf topic rest = handlersOf topic channels := by
  have htopics := hperm.map (·.topic)
  by_cases h : topic ∈ channels.map (·.topic)
  · obtain ⟨channel, hmem, rfl⟩ := List.mem_map.1 h
    rw [handlersOf_of_mem hnodup hmem,
      handlersOf_of_mem (htopics.nodup_iff.2 hnodup) (hperm.mem_iff.2 hmem)]
  · rw [handlersOf_of_notMem h, handlersOf_of_notMem fun hmem => h (htopics.mem_iff.1 hmem)]

/-! ### Adding a handler -/

theorem add_cons_self (id : SubscriptionId) (handler : Handler ω (Event channel.topic))
    (rest : List (Channel Event ω)) :
    add channel.topic id handler (channel :: rest) =
      ⟨channel.topic, channel.handlers ++ [(id, handler)]⟩ :: rest := by
  rw [add, dif_pos rfl]

theorem add_cons_of_ne (h : channel.topic ≠ topic) (id : SubscriptionId)
    (handler : Handler ω (Event topic)) (rest : List (Channel Event ω)) :
    add topic id handler (channel :: rest) = channel :: add topic id handler rest := by
  rw [add, dif_neg h]

theorem handlersOf_add_self (topic : τ) (id : SubscriptionId) (handler : Handler ω (Event topic))
    (channels : List (Channel Event ω)) :
    handlersOf topic (add topic id handler channels) =
      handlersOf topic channels ++ [(id, handler)] := by
  induction channels with
  | nil => exact handlersOf_cons_self ⟨topic, [(id, handler)]⟩ []
  | cons channel rest ih =>
    by_cases h : channel.topic = topic
    · subst h
      rw [add_cons_self, handlersOf_cons_self]
      exact handlersOf_cons_self ⟨channel.topic, channel.handlers ++ [(id, handler)]⟩ rest
    · rw [add_cons_of_ne h, handlersOf_cons_of_ne h, handlersOf_cons_of_ne h, ih]

/-- The handlers of the other types of event stay as they are. -/
theorem handlersOf_add_of_ne {probe : τ} (hne : topic ≠ probe) (id : SubscriptionId)
    (handler : Handler ω (Event topic)) (channels : List (Channel Event ω)) :
    handlersOf probe (add topic id handler channels) = handlersOf probe channels := by
  induction channels with
  | nil => exact handlersOf_cons_of_ne hne []
  | cons channel rest ih =>
    by_cases h : channel.topic = topic
    · subst h
      rw [add_cons_self, handlersOf_cons_of_ne hne, handlersOf, dif_neg hne]
    · rw [add_cons_of_ne h]
      by_cases hprobe : channel.topic = probe
      · subst hprobe
        rw [handlersOf_cons_self, handlersOf_cons_self]
      · rw [handlersOf_cons_of_ne hprobe, handlersOf_cons_of_ne hprobe, ih]

/-- A type of event is given a channel unless it has one. -/
theorem topics_add (id : SubscriptionId) (handler : Handler ω (Event topic))
    (channels : List (Channel Event ω)) :
    (add topic id handler channels).map (·.topic) =
      if topic ∈ channels.map (·.topic) then channels.map (·.topic)
      else channels.map (·.topic) ++ [topic] := by
  induction channels with
  | nil => rfl
  | cons channel rest ih =>
    by_cases h : channel.topic = topic
    · subst h
      rw [add_cons_self, if_pos (by simp)]
      rfl
    · rw [add_cons_of_ne h, List.map_cons, ih]
      have hmem : topic ∈ (channel :: rest).map (·.topic) ↔ topic ∈ rest.map (·.topic) := by
        simp [Ne.symm h]
      simp only [hmem]
      split <;> rfl

theorem nodup_topics_add (hnodup : (channels.map (·.topic)).Nodup) (id : SubscriptionId)
    (handler : Handler ω (Event topic)) :
    ((add topic id handler channels).map (·.topic)).Nodup := by
  rw [topics_add]
  split
  · exact hnodup
  · rename_i hnew
    exact List.nodup_append.2 ⟨hnodup, List.nodup_singleton topic, by
      rintro a ha b hb rfl
      exact hnew (List.mem_singleton.1 hb ▸ ha)⟩

/-! ### Dropping a subscription -/

omit [DecidableEq τ] in
theorem filter_eq_self_of_notMem {ε : Type} {handlers : List (SubscriptionId × ε)}
    (h : id ∉ handlers.map (·.1)) : handlers.filter (·.1 != id) = handlers := by
  refine List.filter_eq_self.2 fun entry hentry => bne_iff_ne.2 ?_
  rintro rfl
  exact h (List.mem_map_of_mem hentry)

omit [DecidableEq τ] in
/-- A channel without the subscription is left as it is. -/
theorem drop_of_notMem (h : id ∉ channel.handlers.map (·.1)) :
    channel.drop id = (false, channel) := by
  simp [drop, filter_eq_self_of_notMem h]

omit [DecidableEq τ] in
/-- A channel with the subscription loses it. -/
theorem drop_of_mem (h : id ∈ channel.handlers.map (·.1)) :
    channel.drop id =
      (true, { channel with handlers := channel.handlers.filter (·.1 != id) }) := by
  obtain ⟨entry, hentry, hid⟩ := List.mem_map.1 h
  have hshorter : (channel.handlers.filter (·.1 != id)).length < channel.handlers.length :=
    List.length_filter_lt_length_iff_exists.2 ⟨entry, hentry, by simp [hid]⟩
  have hne : ((channel.handlers.filter (·.1 != id)).length != channel.handlers.length) = true :=
    bne_iff_ne.2 (Nat.ne_of_lt hshorter)
  rw [drop, hne]

omit [DecidableEq τ] in
theorem topics_dropFirst (id : SubscriptionId) (channels : List (Channel Event ω)) :
    (dropFirst id channels).2.map (·.topic) = channels.map (·.topic) := by
  induction channels with
  | nil => rfl
  | cons channel rest ih =>
    by_cases h : id ∈ channel.handlers.map (·.1)
    · rw [dropFirst, drop_of_mem h]
      rfl
    · rw [dropFirst, drop_of_notMem h]
      exact congrArg (channel.topic :: ·) ih

/-- Whether a subscription is found, of whatever type, and what is left without it, if no other type
of event has the id. -/
theorem dropFirst_spec (hnodup : (channels.map (·.topic)).Nodup)
    (honce : ∀ topic other, id ∈ idsOf topic channels → id ∈ idsOf other channels → topic = other) :
    ((dropFirst id channels).1 = true ↔ ∃ topic, id ∈ idsOf topic channels) ∧
      ∀ topic, handlersOf topic (dropFirst id channels).2 =
        (handlersOf topic channels).filter (·.1 != id) := by
  induction channels with
  | nil => exact ⟨by simp [dropFirst, idsOf, handlersOf], fun _ => rfl⟩
  | cons channel rest ih =>
    rw [List.map_cons, List.nodup_cons] at hnodup
    have hself : idsOf channel.topic (channel :: rest) = channel.handlers.map (·.1) := by
      rw [idsOf, handlersOf_cons_self]
    have hother : ∀ topic, channel.topic ≠ topic →
        idsOf topic (channel :: rest) = idsOf topic rest := by
      intro topic hne
      rw [idsOf, idsOf, handlersOf_cons_of_ne hne]
    have hlater : ∀ topic, id ∈ idsOf topic rest →
        channel.topic ≠ topic ∧ id ∈ idsOf topic (channel :: rest) := by
      intro topic hid
      have hne : channel.topic ≠ topic := by
        rintro rfl
        rw [idsOf, handlersOf_of_notMem hnodup.1] at hid
        cases hid
      exact ⟨hne, by rwa [hother topic hne]⟩
    by_cases h : id ∈ channel.handlers.map (·.1)
    · -- the channel has the subscription, so no later one has it
      have hdrop : dropFirst id (channel :: rest) =
          (true, { channel with handlers := channel.handlers.filter (·.1 != id) } :: rest) := by
        rw [dropFirst, drop_of_mem h]
      rw [hdrop]
      refine ⟨⟨fun _ => ⟨channel.topic, by rwa [hself]⟩, fun _ => rfl⟩, fun topic => ?_⟩
      by_cases htopic : channel.topic = topic
      · subst htopic
        rw [handlersOf_cons_self]
        exact handlersOf_cons_self _ rest
      · have hnot : id ∉ idsOf topic rest := by
          intro hid
          exact htopic (honce _ _ (by rwa [hself]) (hlater topic hid).2)
        rw [handlersOf_cons_of_ne htopic, filter_eq_self_of_notMem hnot, handlersOf,
          dif_neg htopic]
    · -- nothing is found here, so the rest decides
      have hdrop : dropFirst id (channel :: rest) =
          ((dropFirst id rest).1, channel :: (dropFirst id rest).2) := by
        rw [dropFirst, drop_of_notMem h]
      obtain ⟨hfound, hleft⟩ := ih hnodup.2 fun topic other htopic hid =>
        honce topic other (hlater topic htopic).2 (hlater other hid).2
      rw [hdrop]
      refine ⟨hfound.trans ⟨?_, ?_⟩, fun topic => ?_⟩
      · rintro ⟨topic, hid⟩
        exact ⟨topic, (hlater topic hid).2⟩
      · rintro ⟨topic, hid⟩
        by_cases htopic : channel.topic = topic
        · subst htopic
          rw [hself] at hid
          exact absurd hid h
        · exact ⟨topic, by rwa [hother topic htopic] at hid⟩
      · by_cases htopic : channel.topic = topic
        · subst htopic
          rw [handlersOf_cons_self, handlersOf_cons_self, filter_eq_self_of_notMem h]
        · rw [handlersOf_cons_of_ne htopic, handlersOf_cons_of_ne htopic, hleft]

end Channel

/-! ## One list of subscriptions -/

/-- A subscription. -/
structure Subscription {τ : Type} (Event : τ → Type) (ω : Type) where
  /-- Its id. -/
  id : SubscriptionId
  /-- The type of event. -/
  topic : τ
  /-- What is done with an event. -/
  handler : Handler ω (Event topic)

namespace Subscription

variable {topic : τ} {live rest : List (Subscription Event ω)} {id : SubscriptionId}

/-- The subscriptions of a type of event. -/
def ofTopic (topic : τ) (live : List (Subscription Event ω)) :
    List (SubscriptionId × Handler ω (Event topic)) :=
  live.filterMap fun s => if same : s.topic = topic then some (s.id, same ▸ s.handler) else none

theorem ofTopic_cons_self (s : Subscription Event ω) (rest : List (Subscription Event ω)) :
    ofTopic s.topic (s :: rest) = (s.id, s.handler) :: ofTopic s.topic rest := by
  rw [ofTopic, List.filterMap_cons, dif_pos rfl]
  rfl

theorem ofTopic_cons_of_ne {s : Subscription Event ω} (h : s.topic ≠ topic)
    (rest : List (Subscription Event ω)) : ofTopic topic (s :: rest) = ofTopic topic rest := by
  rw [ofTopic, List.filterMap_cons, dif_neg h]
  rfl

theorem length_ofTopic (topic : τ) (live : List (Subscription Event ω)) :
    (ofTopic topic live).length = live.countP (·.topic = topic) := by
  induction live with
  | nil => rfl
  | cons s rest ih =>
    by_cases h : s.topic = topic
    · subst h
      rw [ofTopic_cons_self, List.length_cons, ih, List.countP_cons_of_pos (by simp)]
    · rw [ofTopic_cons_of_ne h, ih, List.countP_cons_of_neg (by simpa using h)]

theorem ofTopic_append (live rest : List (Subscription Event ω)) :
    ofTopic topic (live ++ rest) = ofTopic topic live ++ ofTopic topic rest :=
  List.filterMap_append ..

theorem mem_ids_ofTopic :
    id ∈ (ofTopic topic live).map (·.1) ↔ ∃ s ∈ live, s.id = id ∧ s.topic = topic := by
  induction live with
  | nil => simp [ofTopic]
  | cons s rest ih =>
    by_cases h : s.topic = topic
    · subst h
      rw [ofTopic_cons_self, List.map_cons, List.mem_cons, ih]
      simp [eq_comm]
    · rw [ofTopic_cons_of_ne h, ih]
      simp [h]

omit [DecidableEq τ] in
theorem eq_of_id_eq (hnodup : (live.map (·.id)).Nodup) {s other : Subscription Event ω}
    (hs : s ∈ live) (hother : other ∈ live) (h : s.id = other.id) : s = other :=
  List.inj_on_of_nodup_map hnodup hs hother h

/-- Taking the subscription with an id out leaves those with other ids. -/
theorem ofTopic_eraseP (hnodup : (live.map (·.id)).Nodup) (id : SubscriptionId) (topic : τ) :
    ofTopic topic (live.eraseP (·.id = id)) = (ofTopic topic live).filter (·.1 != id) := by
  induction live with
  | nil => rfl
  | cons s rest ih =>
    rw [List.map_cons, List.nodup_cons] at hnodup
    by_cases hid : s.id = id
    · -- the search stops here, and no later subscription has the id
      have hkept : (ofTopic topic rest).filter (·.1 != id) = ofTopic topic rest := by
        refine Channel.filter_eq_self_of_notMem fun hmem => ?_
        obtain ⟨other, hother, heq, -⟩ := mem_ids_ofTopic.1 hmem
        exact hnodup.1 (hid.trans heq.symm ▸ List.mem_map_of_mem hother)
      rw [List.eraseP_cons_of_pos (by simpa using hid)]
      by_cases htopic : s.topic = topic
      · subst htopic
        rw [ofTopic_cons_self, List.filter_cons_of_neg (by simpa using hid), hkept]
      · rw [ofTopic_cons_of_ne htopic, hkept]
    · rw [List.eraseP_cons_of_neg (by simpa using hid)]
      by_cases htopic : s.topic = topic
      · subst htopic
        rw [ofTopic_cons_self, ofTopic_cons_self, List.filter_cons_of_pos (by simpa using hid),
          ih hnodup.2]
      · rw [ofTopic_cons_of_ne htopic, ofTopic_cons_of_ne htopic, ih hnodup.2]

end Subscription

/-! ## Histories of calls -/

namespace EventBus

/-- What a bus is asked. -/
inductive Call {τ : Type} (Event : τ → Type) (ω : Type) where
  /-- Subscribe to a type of event. -/
  | subscribe (topic : τ) (handler : Handler ω (Event topic))
  /-- Give a subscription up. -/
  | unsubscribe (id : SubscriptionId)
  /-- Count the subscriptions of a type of event. -/
  | count (topic : τ)
  /-- Raise an event on an entity. -/
  | raise (topic : τ) (uid : EntityUid) (event : Event topic)

/-- What a call comes to. -/
inductive Answer {τ : Type} (Event : τ → Type) where
  /-- The id of a new subscription. -/
  | subscribed (id : SubscriptionId)
  /-- Whether there was the subscription. -/
  | unsubscribed (found : Bool)
  /-- How many subscriptions there are. -/
  | counted (number : Nat)
  /-- The event as its last handler left it. -/
  | raised (topic : τ) (event : Event topic)

/-- The id that an answer hands out. -/
def Answer.handedOut? : Answer Event → Option SubscriptionId
  | .subscribed id => some id
  | _ => none

/-- The number of subscriptions that calls make. -/
def subscriptions (calls : List (Call Event ω)) : Nat :=
  calls.countP fun call => call matches .subscribe ..

/-- One call of a bus in its surroundings. -/
def perform (bus : EventBus Event ω) (world : ω) :
    Call Event ω → Answer Event × EventBus Event ω × ω
  | .subscribe topic handler =>
    let (id, bus) := bus.subscribe topic handler
    (.subscribed id, bus, world)
  | .unsubscribe id =>
    let (found, bus) := bus.unsubscribe id
    (.unsubscribed found, bus, world)
  | .count topic => (.counted (bus.subscriberCount topic), bus, world)
  | .raise topic uid event =>
    let (event, world) := bus.raise topic uid event world
    (.raised topic event, bus, world)

/-- A history of calls with its answers. Before a call the channels may be in any order. -/
inductive Run : EventBus Event ω → ω → List (Call Event ω) → List (Answer Event) →
    EventBus Event ω → ω → Prop where
  /-- Nothing is asked. -/
  | nil (bus : EventBus Event ω) (world : ω) : Run bus world [] [] bus world
  /-- One call and the rest. -/
  | cons {bus shuffled after last : EventBus Event ω} {world next final : ω} {call : Call Event ω}
      {answer : Answer Event} {calls : List (Call Event ω)} {answers : List (Answer Event)}
      (order : shuffled.channels.Perm bus.channels) (same : shuffled.nextId = bus.nextId)
      (step : shuffled.perform world call = (answer, after, next))
      (rest : Run after next calls answers last final) :
      Run bus world (call :: calls) (answer :: answers) last final

end EventBus

/-- The live subscriptions, oldest first, and how many were ever made. -/
structure Ledger {τ : Type} (Event : τ → Type) (ω : Type) where
  /-- The live subscriptions. -/
  live : List (Subscription Event ω) := []
  /-- How many were ever made. -/
  made : Nat := 0

namespace Ledger

open EventBus (Call Answer subscriptions)

/-- One call of a list of subscriptions. A new one goes to its end under the next number, and one
that is given up is taken out. An event is handed from each subscription of its type to the next. -/
def perform (ledger : Ledger Event ω) (world : ω) :
    Call Event ω → Answer Event × Ledger Event ω × ω
  | .subscribe topic handler =>
    let id : SubscriptionId := ⟨.ofNat ledger.made⟩
    (.subscribed id, ⟨ledger.live ++ [⟨id, topic, handler⟩], ledger.made + 1⟩, world)
  | .unsubscribe id =>
    (.unsubscribed (ledger.live.any (·.id = id)),
      { ledger with live := ledger.live.eraseP (·.id = id) }, world)
  | .count topic => (.counted (ledger.live.countP (·.topic = topic)), ledger, world)
  | .raise topic uid event =>
    let (event, world) := (Subscription.ofTopic topic ledger.live).foldl
      (fun (event, world) entry => entry.2 uid event world) (event, world)
    (.raised topic event, ledger, world)

/-- A history of calls of a list of subscriptions. -/
def run (ledger : Ledger Event ω) (world : ω) :
    List (Call Event ω) → List (Answer Event) × Ledger Event ω × ω
  | [] => ([], ledger, world)
  | call :: calls =>
    let (answer, after, next) := ledger.perform world call
    let (answers, last, final) := after.run next calls
    (answer :: answers, last, final)

end Ledger

/-! ## A bus and its list -/

namespace EventBus

/-- A bus is a list of subscriptions that is kept apart by type of event. -/
structure Sim (bus : EventBus Event ω) (ledger : Ledger Event ω) : Prop where
  /-- The next id is the number of subscriptions that were made. -/
  next : bus.nextId.toNat = ledger.made
  /-- A type of event has one channel. -/
  topics : (bus.channels.map (·.topic)).Nodup
  /-- A channel holds the subscriptions of its type. -/
  handlers : ∀ topic, bus.subscribers topic = Subscription.ofTopic topic ledger.live
  /-- No two live subscriptions share an id. -/
  ids : (ledger.live.map (·.id)).Nodup
  /-- No live subscription has an id that is still to be handed out. -/
  below : ∀ s ∈ ledger.live, s.id.raw.toNat < ledger.made

variable {bus shuffled : EventBus Event ω} {ledger : Ledger Event ω}

theorem sim_empty : Sim ({} : EventBus Event ω) {} where
  next := rfl
  topics := List.nodup_nil
  handlers _ := rfl
  ids := List.nodup_nil
  below _ h := by cases h

theorem Sim.shuffle (h : Sim bus ledger) (order : shuffled.channels.Perm bus.channels)
    (same : shuffled.nextId = bus.nextId) : Sim shuffled ledger where
  next := same ▸ h.next
  topics := (order.map (·.topic)).nodup_iff.2 h.topics
  handlers topic := (Channel.handlersOf_perm h.topics order topic).trans (h.handlers topic)
  ids := h.ids
  below := h.below

theorem Sim.subscribe (h : Sim bus ledger) (hroom : ledger.made + 1 < UInt64.size) (topic : τ)
    (handler : Handler ω (Event topic)) :
    (bus.subscribe topic handler).1 = ⟨.ofNat ledger.made⟩ ∧
      Sim (bus.subscribe topic handler).2
        ⟨ledger.live ++ [⟨⟨.ofNat ledger.made⟩, topic, handler⟩], ledger.made + 1⟩ := by
  have hid : bus.nextId = .ofNat ledger.made := by rw [← h.next, UInt64.ofNat_toNat]
  have hnumber : (UInt64.ofNat ledger.made).toNat = ledger.made := by rw [← hid, h.next]
  refine ⟨congrArg SubscriptionId.mk hid, ?_, ?_, ?_, ?_, ?_⟩
  · show (bus.nextId + 1).toNat = ledger.made + 1
    rw [UInt64.toNat_add, h.next]
    exact Nat.mod_eq_of_lt hroom
  · exact Channel.nodup_topics_add h.topics _ handler
  · intro probe
    show Channel.handlersOf probe (Channel.add topic ⟨bus.nextId⟩ handler bus.channels) = _
    rw [Subscription.ofTopic_append, ← h.handlers, hid]
    by_cases hprobe : topic = probe
    · subst hprobe
      have hnew : Subscription.ofTopic topic [⟨⟨.ofNat ledger.made⟩, topic, handler⟩] =
          [(⟨.ofNat ledger.made⟩, handler)] :=
        Subscription.ofTopic_cons_self ⟨⟨.ofNat ledger.made⟩, topic, handler⟩ []
      rw [Channel.handlersOf_add_self, hnew]
      rfl
    · rw [Channel.handlersOf_add_of_ne hprobe, Subscription.ofTopic_cons_of_ne hprobe]
      exact (List.append_nil _).symm
  · rw [List.map_append, List.nodup_append]
    refine ⟨h.ids, List.nodup_singleton _, ?_⟩
    -- the id that is handed out is above all those that are live
    rintro id hlive _ hnew rfl
    obtain ⟨s, hs, rfl⟩ := List.mem_map.1 hlive
    have hbelow := h.below s hs
    rw [List.mem_singleton.1 hnew, hnumber] at hbelow
    exact absurd hbelow (Nat.lt_irrefl _)
  · intro s hs
    rcases List.mem_append.1 hs with hs | hs
    · exact Nat.lt_succ_of_lt (h.below s hs)
    · rw [List.mem_singleton.1 hs, hnumber]
      exact Nat.lt_succ_self _

theorem Sim.unsubscribe (h : Sim bus ledger) (id : SubscriptionId) :
    (bus.unsubscribe id).1 = ledger.live.any (·.id = id) ∧
      Sim (bus.unsubscribe id).2 { ledger with live := ledger.live.eraseP (·.id = id) } := by
  have hmem : ∀ topic, id ∈ Channel.idsOf topic bus.channels ↔
      ∃ s ∈ ledger.live, s.id = id ∧ s.topic = topic := by
    intro topic
    rw [← Subscription.mem_ids_ofTopic, ← h.handlers]
    rfl
  have honce : ∀ topic other, id ∈ Channel.idsOf topic bus.channels →
      id ∈ Channel.idsOf other bus.channels → topic = other := by
    intro topic other htopic hother
    obtain ⟨s, hs, hid, rfl⟩ := (hmem topic).1 htopic
    obtain ⟨t, ht, hid', rfl⟩ := (hmem other).1 hother
    rw [Subscription.eq_of_id_eq h.ids hs ht (hid.trans hid'.symm)]
  obtain ⟨hfound, hleft⟩ := Channel.dropFirst_spec h.topics honce
  have hsublist : (ledger.live.eraseP (·.id = id)).Sublist ledger.live := List.eraseP_sublist
  refine ⟨?_, h.next, ?_, ?_, h.ids.sublist (hsublist.map _),
    fun s hs => h.below s (hsublist.subset hs)⟩
  · show (Channel.dropFirst id bus.channels).1 = _
    rw [Bool.eq_iff_iff, hfound, List.any_eq_true]
    simp only [hmem, decide_eq_true_eq]
    constructor
    · rintro ⟨topic, s, hs, hid, -⟩
      exact ⟨s, hs, hid⟩
    · rintro ⟨s, hs, hid⟩
      exact ⟨s.topic, s, hs, hid, rfl⟩
  · show ((Channel.dropFirst id bus.channels).2.map (·.topic)).Nodup
    rw [Channel.topics_dropFirst]
    exact h.topics
  · intro topic
    rw [Subscription.ofTopic_eraseP h.ids, ← h.handlers]
    exact hleft topic

/-- A bus and its list answer alike, leave the world alike, and stay alike. -/
theorem Sim.perform (h : Sim bus ledger) (world : ω) (call : Call Event ω)
    (hroom : ledger.made + subscriptions [call] < UInt64.size) :
    (bus.perform world call).1 = (ledger.perform world call).1 ∧
      Sim (bus.perform world call).2.1 (ledger.perform world call).2.1 ∧
      (bus.perform world call).2.2 = (ledger.perform world call).2.2 := by
  cases call with
  | subscribe topic handler =>
    obtain ⟨hid, hsim⟩ := h.subscribe hroom topic handler
    exact ⟨congrArg Answer.subscribed hid, hsim, rfl⟩
  | unsubscribe id =>
    obtain ⟨hfound, hsim⟩ := h.unsubscribe id
    exact ⟨congrArg Answer.unsubscribed hfound, hsim, rfl⟩
  | count topic =>
    refine ⟨congrArg Answer.counted ?_, h, rfl⟩
    rw [subscriberCount, h.handlers, Subscription.length_ofTopic]
  | raise topic uid event =>
    have hraise : bus.raise topic uid event world =
        (Subscription.ofTopic topic ledger.live).foldl
          (fun (event, world) entry => entry.2 uid event world) (event, world) := by
      rw [raise, h.handlers]
    exact ⟨congrArg (fun left : Event topic × ω => Answer.raised topic left.1) hraise, h,
      congrArg Prod.snd hraise⟩

/-- The number of subscriptions made so far goes up by those that a call makes. -/
theorem made_perform (ledger : Ledger Event ω) (world : ω) (call : Call Event ω) :
    (ledger.perform world call).2.1.made = ledger.made + subscriptions [call] := by
  cases call <;> rfl

omit [DecidableEq τ] in
theorem subscriptions_cons (call : Call Event ω) (calls : List (Call Event ω)) :
    subscriptions (call :: calls) = subscriptions [call] + subscriptions calls := by
  rw [subscriptions, ← List.singleton_append, List.countP_append]
  rfl

/-- A run of a bus is the run of its list. -/
theorem Sim.run {calls : List (Call Event ω)} {answers : List (Answer Event)}
    {last : EventBus Event ω} {world final : ω} (h : Sim bus ledger)
    (hrun : Run bus world calls answers last final)
    (hroom : ledger.made + subscriptions calls < UInt64.size) :
    answers = (ledger.run world calls).1 ∧ Sim last (ledger.run world calls).2.1 ∧
      final = (ledger.run world calls).2.2 := by
  induction hrun generalizing ledger with
  | nil bus world => exact ⟨rfl, h, rfl⟩
  | @cons _ _ _ _ world next _ call _ calls _ order same step _ ih =>
    rw [subscriptions_cons] at hroom
    obtain ⟨hanswer, hsim, hworld⟩ := (h.shuffle order same).perform world call (by omega)
    rw [step] at hanswer hsim hworld
    obtain rfl : next = (ledger.perform world call).2.2 := hworld
    obtain ⟨hanswers, hlast, hfinal⟩ := ih hsim (by rw [made_perform]; omega)
    exact ⟨congrArg₂ List.cons hanswer hanswers, hlast, hfinal⟩

theorem handedOut_perform (ledger : Ledger Event ω) (world : ω) (call : Call Event ω) :
    [(ledger.perform world call).1].filterMap Answer.handedOut? =
      (List.range' ledger.made (subscriptions [call])).map fun number => ⟨.ofNat number⟩ := by
  cases call <;> rfl

/-- The ids that a history hands out count up from the number of subscriptions made before. -/
theorem handedOut_run (ledger : Ledger Event ω) (world : ω) (calls : List (Call Event ω)) :
    (ledger.run world calls).1.filterMap Answer.handedOut? =
      (List.range' ledger.made (subscriptions calls)).map fun number => ⟨.ofNat number⟩ := by
  induction calls generalizing ledger world with
  | nil => rfl
  | cons call calls ih =>
    have hlater := ih (ledger.perform world call).2.1 (ledger.perform world call).2.2
    rw [made_perform] at hlater
    rw [subscriptions_cons, ← List.range'_append_1, List.map_append,
      ← handedOut_perform ledger world, ← hlater, ← List.filterMap_append]
    rfl

theorem nodup_handedOut {count : Nat} (h : count < UInt64.size) :
    ((List.range' 0 count).map fun number => (⟨.ofNat number⟩ : SubscriptionId)).Nodup := by
  refine List.Nodup.map_on ?_ (List.nodup_range' ..)
  intro first hfirst second hsecond heq
  rw [List.mem_range'_1] at hfirst hsecond
  have hraw := congrArg (fun id => id.raw.toNat) heq
  have hback : ∀ number, number < UInt64.size → (UInt64.ofNat number).toNat = number :=
    fun number hlt => UInt64.toNat_ofNat_of_lt' hlt
  rwa [hback first (by omega), hback second (by omega)] at hraw

/-- Every history of calls runs. -/
theorem exists_run (bus : EventBus Event ω) (world : ω) (calls : List (Call Event ω)) :
    ∃ answers last final, Run bus world calls answers last final := by
  induction calls generalizing bus world with
  | nil => exact ⟨[], bus, world, .nil bus world⟩
  | cons call calls ih =>
    obtain ⟨answers, last, final, hrun⟩ :=
      ih (bus.perform world call).2.1 (bus.perform world call).2.2
    exact ⟨_, last, final, .cons (List.Perm.refl _) rfl rfl hrun⟩

/-- Every history of calls of a new bus, whatever the order in which its channels are searched, has
the answers of one list of subscriptions, and leaves the world and the live subscriptions of every
type as the list does. No id is handed out twice. -/
theorem answers_of_every_run {calls : List (Call Event ω)} {answers : List (Answer Event)}
    {last : EventBus Event ω} {world final : ω} (hrun : Run {} world calls answers last final)
    (hfew : subscriptions calls < UInt64.size) :
    let ledger : Ledger Event ω := {}
    answers = (ledger.run world calls).1 ∧ final = (ledger.run world calls).2.2 ∧
      (answers.filterMap Answer.handedOut?).Nodup ∧
      ((ledger.run world calls).2.1.live.map (·.id)).Nodup ∧
      ∀ topic, last.subscribers topic =
        Subscription.ofTopic topic (ledger.run world calls).2.1.live := by
  intro ledger
  have hroom : ledger.made + subscriptions calls < UInt64.size := (Nat.zero_add _).symm ▸ hfew
  obtain ⟨hanswers, hlast, hfinal⟩ := sim_empty.run hrun hroom
  refine ⟨hanswers, hfinal, ?_, hlast.ids, hlast.handlers⟩
  rw [hanswers, handedOut_run]
  exact nodup_handedOut hfew

/-- Two subscribers of one type of event and one of another, the first of whom leaves. Whoever is
called leaves a mark. -/
def comings : List (Call Topic.Payload (List Nat)) :=
  [.subscribe .woundLicking fun _ event marks => (event, marks ++ [0]),
    .subscribe .carryDropped fun _ event marks => (event, marks ++ [1]),
    .subscribe .woundLicking fun _ event marks => ({ event with handled := true }, marks ++ [2]),
    .unsubscribe ⟨0⟩, .unsubscribe ⟨0⟩, .count .woundLicking,
    .raise .woundLicking ⟨7⟩ { performer := ⟨7⟩, target := ⟨8⟩ }]

theorem answers_of_every_run_comings :
    subscriptions comings < UInt64.size ∧
      ∃ answers last final, Run {} [] comings answers last final ∧
        answers = [.subscribed ⟨0⟩, .subscribed ⟨1⟩, .subscribed ⟨2⟩, .unsubscribed true,
          .unsubscribed false, .counted 1,
          .raised .woundLicking { performer := ⟨7⟩, target := ⟨8⟩, handled := true }] ∧
        final = [2] ∧ (answers.filterMap Answer.handedOut?).Nodup ∧
        last.subscriberCount .carryDropped = 1 := by
  have hfew : subscriptions comings < UInt64.size := by decide
  obtain ⟨answers, last, final, hrun⟩ := exists_run {} [] comings
  obtain ⟨hanswers, hfinal, hids, -, hlive⟩ := answers_of_every_run hrun hfew
  refine ⟨hfew, answers, last, final, hrun, hanswers, hfinal, hids, ?_⟩
  rw [subscriberCount, hlive]
  rfl

end EventBus

end Station
