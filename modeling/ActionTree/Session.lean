/-
# Sessions

A bench for building and running trees step by step: a stack of actions, at
most one tree and the state of the runs so far.

* `Session`, `Command`, `Reply`: the bench, what it is told and what it answers.
* `Session.step?`: one step. A command that lacks what it needs is refused.
* `Session.step`: one step, where a refused command changes nothing.
-/
import ActionTree.Run.Outcome

namespace ActionTree

/-- A bench with its stack, the top first. -/
structure Session where
  stack : List Action
  tree : Option Tree
  run : RunState

/-- What a session is told to do. -/
inductive Command where
  | push (action : Action)
  | pushDocument (json : Json)
  | duplicate
  | pop
  | attach (place : String)
  | inspect
  | check
  | compare
  | execute (context : Context)
  | plant (context : Context)
  | readTree (json : Json)
  | setContext (context : Context)
  | checkTree
  | writeTree
  | pushRoot
  | executeTree
  | runTree
  | failAfter (limit : Option Nat)
  | cancel
  | renew

/-- What a session answers. -/
inductive Reply where
  | done
  | truth (value : Bool)
  | document (json : Json)
  | summary (text : String)
  | actionFault (error : ActionError)
  | treeFault (error : Error)
  | executed (outcome : Except Error Unit) (deliveries : List Delivery)
  | ran (outcome : Except Error Unit) (deliveries : List Delivery)

namespace Session

/-- A bench with nothing on it and a recorder without limits. -/
def new : Session :=
  ⟨[], none, .recording none none⟩

/-- The deliveries recorded between two states. -/
def newDeliveries (before after : RunState) : List Delivery :=
  after.recorded.deliveries.toList.drop before.recorded.deliveries.size

/-- Runs a computation on the state of the runs. -/
def execute (session : Session) (execution : Execution Unit) : Reply × Session :=
  let (outcome, run) := execution.run.run session.run
  (.executed outcome (newDeliveries session.run run), { session with run })

/-- Runs a tree document. -/
def runDocument (session : Session) (json : Json) : Reply × Session :=
  let (outcome, run) := (Tree.run json).run session.run
  (.ran outcome (newDeliveries session.run run), { session with run })

/-- The state of the runs with other limits of the recorder. -/
def limited (state : RunState) (limit : Option Nat) : RunState :=
  match state.notifier with
  | .record recorder => { state with notifier := .record { recorder with failAfter := limit } }
  | .log _ => state

/-- One step: the answer and the bench after it, or nothing if the command lacks
what it needs. -/
def step? (session : Session) : Command → Option (Reply × Session)
  | .push action => some (.done, { session with stack := action :: session.stack })
  | .pushDocument json => match Action.ofJson json with
    | .ok action => some (.done, { session with stack := action :: session.stack })
    | .error error => some (.actionFault error, session)
  | .duplicate => match session.stack with
    | top :: _ => some (.done, { session with stack := top :: session.stack })
    | [] => none
  | .pop => match session.stack with
    | top :: rest => some (.document top.toJson, { session with stack := rest })
    | [] => none
  | .attach place => match session.stack with
    | child :: parent :: rest => do
      let slot ← Action.Slot.ofName? place
      let parent ← parent.attach? slot child
      return (.document parent.toJson, { session with stack := parent :: rest })
    | _ => none
  | .inspect => match session.stack with
    | top :: _ => some (.document top.outline, session)
    | [] => none
  | .check => match session.stack with
    | top :: _ => some (.truth top.wellFormed, session)
    | [] => none
  | .compare => match session.stack with
    | top :: next :: _ => some (.truth (top = next), session)
    | _ => none
  | .execute context => match session.stack with
    | top :: _ => some (session.execute (top.execute context))
    | [] => none
  | .plant context => match session.stack with
    | root :: rest =>
      some (.document (Tree.toJson ⟨root, context⟩),
        { session with stack := rest, tree := some ⟨root, context⟩ })
    | [] => none
  | .readTree json => match Tree.ofJson json with
    | .ok tree => some (.document tree.toJson, { session with tree := some tree })
    | .error error => some (.treeFault error, session)
  | .setContext context => session.tree.map fun tree =>
    (.document context.toJson, { session with tree := some { tree with context } })
  | .checkTree => session.tree.map fun tree => (.truth tree.wellFormed, session)
  | .writeTree => session.tree.map fun tree => (.document tree.toJson, session)
  | .pushRoot => session.tree.map fun tree =>
    (.done, { session with stack := tree.root :: session.stack })
  | .executeTree => session.tree.map fun tree => session.execute tree.execute
  | .runTree => session.tree.map fun tree => session.runDocument tree.toJson
  | .failAfter limit => some (.done, { session with run := limited session.run limit })
  | .cancel =>
    let run := session.run.cancel
    some (.summary run.summary, { session with run })
  | .renew =>
    let run := { session.run with cancelled := false }
    some (.summary run.summary, { session with run })

/-- One step, where a refused command has no answer and changes nothing. -/
def step (session : Session) (command : Command) : Option Reply × Session :=
  match session.step? command with
  | some (reply, next) => (some reply, next)
  | none => (none, session)

end Session
end ActionTree
