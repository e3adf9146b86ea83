/-
Runs of a session: steps taken one after the other, by the client, by the debuggee on its own, or by
whoever edits the sources, with what each step answers and what is noticed meanwhile.
-/
import DebugBridge.Session

namespace DebugBridge

open Json (Value Wire)

/-- What a client can ask of a bridge. -/
inductive Operation where
  | start (address : String) (stopOnEntry noDebug : Bool)
  | startConfigured
  | disconnect
  /-- Sends a command and forgets it. -/
  | execute (control : Control)
  | setBreakpoint (path : String) (line : UInt32)
  | setBreakpoints (path : String) (lines : List UInt32)
  | clearBreakpoint (path : String) (line : UInt32)
  | clearBreakpoints (path : String)
  | breakpoints (path : String)
  | breakColumns (path : String) (line : UInt32)
  | runState
  | stack
  | stackPage (start levels : Nat)
  | threads
  | scopes (frame : UInt32)
  | expandReference (reference : Int64)
  | expandHandle (handle : VariableHandle)
  deriving DecidableEq, Repr

/-- One thing that happens in a run. -/
inductive Step where
  /-- The client asks for something. Where that waits for the debuggee, the debuggee may act: the
  first list is what it does during the first wait, and so on. -/
  | operation (operation : Operation) (asides : List (List Happening) := [])
  | happening (happening : Happening)
  /-- The contents of a file change, or it disappears. -/
  | edit (path : String) (contents : Option FileContents)
  deriving DecidableEq, Repr

/-- What a step answers. -/
inductive Answer where
  | done
  | failed (failure : Failure)
  | breakpoint (b : Breakpoint)
  | breakpoints (bs : List Breakpoint)
  | columns (columns : List Nat)
  | runState (state : RunState)
  | frames (frames : List StackFrame)
  | page (page : StackPage)
  | threads (threads : List Thread)
  | scopes (scopes : List Scope)
  | listing (members : List Variable)
  /-- Whether there was a push connection for the debuggee to act on. -/
  | delivered (delivered : Bool)
  deriving DecidableEq, Repr

namespace Answer

/-- An answer made of a result that may be a failure. -/
def ofResult {α : Type} (make : α → Answer) : Except Failure α → Answer
  | .ok a => make a
  | .error failure => failed failure

end Answer

namespace Session

/-- Carries out an operation of the bridge. -/
def operate (s : Session) : Operation → Answer × Session
  | .start address stopOnEntry noDebug =>
    (s.start address stopOnEntry noDebug).map (.ofResult fun _ => .done) id
  | .startConfigured => s.startConfigured.map (.ofResult fun _ => .done) id
  | .disconnect => (.done, s.disconnect)
  | .execute control => (.done, s.dispatch control)
  | .setBreakpoint path line => (s.setBreakpoint path line).map .breakpoint id
  | .setBreakpoints path lines => (s.setBreakpoints path lines).map .breakpoints id
  | .clearBreakpoint path line =>
    (s.clearBreakpoint path line).map (fun removed => removed.elim .done .breakpoint) id
  | .clearBreakpoints path => (.done, s.clearBreakpoints path)
  | .breakpoints path => (.breakpoints (s.bridge.registry.list path), s)
  | .breakColumns path line => (s.breakColumns path line).map (.ofResult .columns) id
  | .runState => (.runState s.bridge.runState, s)
  | .stack => (.frames s.bridge.frames, s)
  | .stackPage start levels => (.page (.of s.bridge.frames start levels), s)
  | .threads => (.threads DebugBridge.threads, s)
  | .scopes frame => (s.scopes frame).map .scopes id
  | .expandReference reference => (s.expandReference reference).map (.ofResult .listing) id
  | .expandHandle handle => (s.expandHandle handle).map (.ofResult .listing) id

/-- Takes a step. -/
def step (s : Session) : Step → Answer × Session
  | .operation operation asides =>
    let (answer, after) := { s with asides }.operate operation
    (answer, { after with asides := [] })
  | .happening happening => (.delivered s.debuggee.connected, s.deliver happening)
  | .edit path contents => (.done, { s with files := s.files.set path contents })

/-- Takes steps one after the other. -/
def run (s : Session) (steps : List Step) : Session :=
  steps.foldl (fun s x => (s.step x).2) s

@[simp] theorem run_nil (s : Session) : s.run [] = s := rfl

@[simp] theorem run_cons (s : Session) (x : Step) (steps : List Step) :
    s.run (x :: steps) = (s.step x).2.run steps := rfl

theorem run_append (s : Session) (xs ys : List Step) : s.run (xs ++ ys) = (s.run xs).run ys :=
  List.foldl_append

/-- The effects noticed since the log was `before`. -/
def effectsSince (before : List Effect) (s : Session) : List Effect :=
  s.log.drop before.length

/-- What a step answers, what is noticed while it is taken, and how things stand afterwards. -/
structure Entry where
  answer : Answer
  effects : List Effect
  runState : RunState
  connected : Bool
  deriving DecidableEq, Repr

/-- The entries of a run. -/
def entries (s : Session) : List Step → List Entry
  | [] => []
  | x :: steps =>
    let (answer, after) := s.step x
    ⟨answer, after.effectsSince s.log, after.bridge.runState, after.bridge.isConnected⟩
      :: after.entries steps

end Session

end DebugBridge
