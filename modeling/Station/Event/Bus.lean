import Station.Event

/-!
# The event bus

A bus keeps the handlers of each type of event apart, in the order of their subscription. Raising an
event hands it from one handler of its type to the next; the raiser ends with what the last one
left.

A handler may act on its surroundings, a value of type `ω` that is threaded through all of them. The
types of event are the members of a type `τ`, and an event of type `t` is a value of `Event t`.
-/

namespace Station

universe u

/-- Names one subscription. -/
structure SubscriptionId where
  /-- How many subscriptions were made before it. -/
  raw : UInt64
  deriving DecidableEq, Repr, Inhabited

/-- The text that shows a subscription. -/
def SubscriptionId.text (id : SubscriptionId) : String :=
  "SubscriptionId(" ++ toString id.raw.toNat ++ ")"

/-- A handler sees the entity and the event, and leaves the event for the next handler. -/
abbrev Handler (ω ε : Type) := EntityUid → ε → ω → ε × ω

/-- The handlers of one type of event, oldest first. -/
structure Channel {τ : Type} (Event : τ → Type) (ω : Type) where
  /-- The type of event. -/
  topic : τ
  /-- Its handlers. -/
  handlers : List (SubscriptionId × Handler ω (Event topic)) := []

namespace Channel

variable {τ : Type} {Event : τ → Type} {ω : Type} [DecidableEq τ]

/-- The handlers of a type of event among several channels. -/
def handlersOf (topic : τ) :
    List (Channel Event ω) → List (SubscriptionId × Handler ω (Event topic))
  | [] => []
  | channel :: rest =>
    if same : channel.topic = topic then same ▸ channel.handlers else handlersOf topic rest

/-- Adds a handler to the channel of its type, which is opened if there is none. -/
def add (topic : τ) (id : SubscriptionId) (handler : Handler ω (Event topic)) :
    List (Channel Event ω) → List (Channel Event ω)
  | [] => [⟨topic, [(id, handler)]⟩]
  | channel :: rest =>
    if same : channel.topic = topic then
      ⟨topic, (same ▸ channel.handlers) ++ [(id, handler)]⟩ :: rest
    else channel :: add topic id handler rest

/-- The channel without one subscription, and whether it had it. -/
def drop (id : SubscriptionId) (channel : Channel Event ω) : Bool × Channel Event ω :=
  let kept := channel.handlers.filter (·.1 != id)
  (kept.length != channel.handlers.length, { channel with handlers := kept })

/-- Drops a subscription from the first channel that has it. -/
def dropFirst (id : SubscriptionId) :
    List (Channel Event ω) → Bool × List (Channel Event ω)
  | [] => (false, [])
  | channel :: rest =>
    match channel.drop id with
    | (true, smaller) => (true, smaller :: rest)
    | (false, same) =>
      let (found, rest) := dropFirst id rest
      (found, same :: rest)

end Channel

/-- The handlers of every type of event, and the id of the next subscription. -/
structure EventBus {τ : Type} (Event : τ → Type) (ω : Type) where
  /-- One channel per type that was ever subscribed to. -/
  channels : List (Channel Event ω) := []
  /-- The id of the next subscription. -/
  nextId : UInt64 := 0

namespace EventBus

variable {τ : Type} {Event : τ → Type} {ω : Type} [DecidableEq τ]

/-- Adds a handler for a type of event. -/
def subscribe (bus : EventBus Event ω) (topic : τ) (handler : Handler ω (Event topic)) :
    SubscriptionId × EventBus Event ω :=
  let id : SubscriptionId := ⟨bus.nextId⟩
  (id, ⟨Channel.add topic id handler bus.channels, bus.nextId + 1⟩)

/-- Removes a subscription, and says whether it was there. -/
def unsubscribe (bus : EventBus Event ω) (id : SubscriptionId) : Bool × EventBus Event ω :=
  let (found, channels) := Channel.dropFirst id bus.channels
  (found, { bus with channels })

/-- The live subscriptions of a type of event, oldest first. -/
def subscribers (bus : EventBus Event ω) (topic : τ) :
    List (SubscriptionId × Handler ω (Event topic)) :=
  Channel.handlersOf topic bus.channels

/-- The number of live subscriptions of a type of event. -/
def subscriberCount (bus : EventBus Event ω) (topic : τ) : Nat := (bus.subscribers topic).length

/-- Hands an event to every live handler of its type, oldest first. -/
def raise (bus : EventBus Event ω) (topic : τ) (uid : EntityUid) (event : Event topic)
    (world : ω) : Event topic × ω :=
  (bus.subscribers topic).foldl (fun (event, world) entry => entry.2 uid event world) (event, world)

/-- The text that shows a bus: how many types were ever subscribed to, how many subscriptions were
ever made. -/
def describe (bus : EventBus Event ω) : String :=
  "EventBus \x7b event_types: " ++ toString bus.channels.length ++ ", next_id: " ++
    toString bus.nextId.toNat ++ " \x7d"

end EventBus

end Station
