import PhysicalAiRuntime.Provider.Client

/-! Sources of recorded actions. `ReplayActionSource` is a protocol, so a source is a state with the
four calls of the protocol; `McapActionSource` is the one the runtime ships. -/
namespace PhysicalAiRuntime.Replay
open Provider
set_option autoImplicit false
set_option maxHeartbeats 250000

/-- A decoded message; `other` is a type that `rewrite` does not know. -/
inductive Message where
  | native (payload : Payload)
  | other (typeName : String)
  deriving DecidableEq, Repr

structure RecordedAction where
  sourceTimeNs : ℤ
  payload : Message
  deriving DecidableEq, Repr

/-- `next` is one pull on the iterator of `actions()`, told whether it is the first one. -/
structure ReplayActionSource (σ : Type) where
  opened : σ → Outcome σ Unit
  reset : σ → Outcome σ Unit
  close : σ → σ
  next : Bool → σ → Outcome σ (Option RecordedAction)

namespace ReplayActionSource
variable {σ : Type}

/-- From `s` the source gives exactly `actions`, in order, and then ends; every state on the way
is one in which the source is in use. -/
def Gives (src : ReplayActionSource σ) (InUse : σ → Prop) :
    Bool → σ → List RecordedAction → Prop
  | first, s, [] => InUse s ∧ ∃ s', src.next first s = (s', .ok none) ∧ InUse s'
  | first, s, action :: actions => InUse s ∧ ∃ s', src.next first s = (s', .ok (some action)) ∧
      Gives src InUse false s' actions

/-- In whatever state of use, a reset takes the source back to the first of `actions`. -/
def Replays (src : ReplayActionSource σ) (InUse : σ → Prop) (actions : List RecordedAction) :
    Prop :=
  ∀ s, InUse s → ∃ s', src.reset s = (s', .ok ()) ∧ src.Gives InUse true s' actions

theorem Gives.inUse {src : ReplayActionSource σ} {InUse : σ → Prop} {first : Bool} {s : σ}
    {actions : List RecordedAction} (h : src.Gives InUse first s actions) : InUse s := by
  cases actions with
  | nil => exact h.1
  | cons action actions => exact h.1

end ReplayActionSource

/-! ## MCAP -/

/-- An episode on disk: its topics with their types, and its messages in record order. -/
structure Bag where
  types : Dict String String
  messages : List (String × String × ℤ)

/-- A reader that was opened with the topic filter set: what it has not delivered yet. -/
structure Reader where
  remaining : List (String × String × ℤ)
  messageType : String

/-- `deserialize` is what ROS makes of a serialized message of a type. -/
structure McapActionSource where
  bag : Bag
  topic : String
  deserialize : String → String → Except PyError Message

namespace McapActionSource

def openReader (m : McapActionSource) : Except PyError Reader :=
  match m.bag.types.get? m.topic with
  | none => .error ⟨.valueError, "episode has no action topic " ++ pyRepr m.topic⟩
  | some messageType =>
    .ok ⟨m.bag.messages.filter fun item => item.1 = m.topic, messageType⟩

def restart (m : McapActionSource) (reader : Option Reader) : Outcome (Option Reader) Unit :=
  match m.openReader with
  | .error e => (reader, .error e)
  | .ok reader => (some reader, .ok ())

/-- One pull: messages of other topics are skipped. -/
def pull (m : McapActionSource) (messageType : String) :
    List (String × String × ℤ) → List (String × String × ℤ) × Except PyError (Option RecordedAction)
  | [] => ([], .ok none)
  | (topic, serialized, recordTimeNs) :: rest =>
    if topic ≠ m.topic then pull m messageType rest
    else (rest, (m.deserialize serialized messageType).map fun payload =>
      some ⟨recordTimeNs, payload⟩)

def next (m : McapActionSource) (first : Bool) :
    Option Reader → Outcome (Option Reader) (Option RecordedAction)
  | none =>
    if first then (none, .error ⟨.runtimeError, "MCAP action source is not open"⟩)
    else (none, .error ⟨.attributeError, "'NoneType' object has no attribute 'has_next'"⟩)
  | some reader =>
    let (remaining, action) := m.pull reader.messageType reader.remaining
    (some { reader with remaining := remaining }, action)

def source (m : McapActionSource) : ReplayActionSource (Option Reader) where
  opened := m.restart
  reset := m.restart
  close := fun _ => none
  next := m.next

/-- The actions of an episode: its messages on the topic, decoded. -/
def actions (m : McapActionSource) (messageType : String) : Except PyError (List RecordedAction) :=
  (m.bag.messages.filter fun item => item.1 = m.topic).mapM fun item =>
    (m.deserialize item.2.1 messageType).map fun payload => ⟨item.2.2, payload⟩

theorem source_gives (m : McapActionSource) {messageType : String} (first : Bool)
    {remaining : List (String × String × ℤ)} {actions : List RecordedAction}
    (htopic : ∀ item ∈ remaining, item.1 = m.topic)
    (h : (remaining.mapM fun item => (m.deserialize item.2.1 messageType).map fun payload =>
      (⟨item.2.2, payload⟩ : RecordedAction)) = .ok actions) :
    m.source.Gives (fun s => s.isSome) first (some ⟨remaining, messageType⟩) actions := by
  induction remaining generalizing actions first with
  | nil =>
    cases h
    exact ⟨rfl, _, rfl, rfl⟩
  | cons item remaining ih =>
    rw [List.mapM_cons] at h
    obtain ⟨action, haction, h⟩ := except_bind_ok h
    obtain ⟨rest, hrest, h⟩ := except_bind_ok h
    cases h
    have hitem : item.1 = m.topic := htopic item List.mem_cons_self
    have hpull : m.next first (some ⟨item :: remaining, messageType⟩) =
        (some ⟨remaining, messageType⟩, .ok (some action)) := by
      obtain ⟨topic, serialized, recordTimeNs⟩ := item
      simp only [next, pull, not_not.mpr hitem, if_false]
      cases hp : m.deserialize serialized messageType with
      | error e => simp [hp, Except.map] at haction
      | ok payload =>
        have heq : (⟨recordTimeNs, payload⟩ : RecordedAction) = action := by
          simpa [hp, Except.map] using haction
        simp [Except.map, heq]
    exact ⟨rfl, _, hpull, ih false (fun x hx => htopic x (List.mem_cons_of_mem item hx)) hrest⟩

/-- An open source of a recorded topic replays the episode from its beginning. -/
theorem source_replays (m : McapActionSource) {messageType : String}
    {actions : List RecordedAction} (htype : m.bag.types.get? m.topic = some messageType)
    (h : m.actions messageType = .ok actions) :
    m.source.Replays (fun s => s.isSome) actions := by
  intro s _
  refine ⟨some ⟨m.bag.messages.filter fun item => item.1 = m.topic, messageType⟩, ?_, ?_⟩
  · change m.restart s = _
    simp [restart, openReader, htype]
  · refine source_gives m true ?_ h
    intro item hitem
    simpa using (List.mem_filter.mp hitem).2

end McapActionSource
end PhysicalAiRuntime.Replay
