import DocumentStore.Client.Transaction

/-! # Scripts of transactions

A script is the body of a transaction written down as data. Running it logs what it saw and did. An
error is logged and ends the script or the attempt that it stands in; an operation may be meant for
one of the runs only. -/

namespace DocumentStore

def Run.number : Run → Nat
  | .discovery => 0
  | .effective => 1

/-- An operation of a script. -/
inductive ScriptOp where
  | get (path : String)
  | write (request : WriteRequest)
  /-- Raises an error. -/
  | fail (message : String)
  | cancel
  /-- Reads a document and goes on with one of two scripts. -/
  | ifExists (path : String) (yes no : List ScriptOp)
  /-- Runs a script and passes over its error. -/
  | attempt (ops : List ScriptOp)
  /-- Is passed over in runs with another number. -/
  | onRun (number : Nat) (op : ScriptOp)

/-- An entry of the log of a run. -/
inductive LogEntry where
  | read (snapshot : Snapshot)
  | wrote (operation : ClientOperation)
  | cancelled
  | existence (exists? : Bool)
  | raised (e : Error)

/-- What a script leaves behind: its log, and the error that ended it. -/
abbrev ScriptEnd := List LogEntry × Except Error Unit

namespace ScriptEnd

/-- The end of a script that logged one thing. -/
def logged (entry : LogEntry) : ScriptEnd := ([entry], .ok ())

/-- The end of a script that raised an error. -/
def raised (e : Error) : ScriptEnd := ([.raised e], .error e)

/-- The end of a script that went on after another. -/
def after (log : List LogEntry) (ended : ScriptEnd) : ScriptEnd := (log ++ ended.1, ended.2)

end ScriptEnd

namespace ScriptOp

mutual

def program (run : Run) : ScriptOp → Program ScriptEnd
  | .get path =>
    .get path fun
      | .ok snapshot => .done (.logged (.read snapshot))
      | .error e => .done (.raised e)
  | .write request =>
    .write request fun
      | .ok () => .done (.logged (.wrote request.operation))
      | .error e => .done (.raised e)
  | .fail message => .done (.raised (.reported .invalidArgument message none))
  | .cancel => .cancel (.done (.logged .cancelled))
  | .ifExists path yes no =>
    .get path fun
      | .ok snapshot =>
        let branch := if snapshot.exists? then programOf run yes else programOf run no
        branch.bind fun ended => .done (.after [.existence snapshot.exists?] ended)
      | .error e => .done (.raised e)
  | .attempt ops => (programOf run ops).bind fun (log, _) => .done (log, .ok ())
  | .onRun number op => if run.number = number then program run op else .done ([], .ok ())

def programOf (run : Run) : List ScriptOp → Program ScriptEnd
  | [] => .done ([], .ok ())
  | op :: ops =>
    (program run op).bind fun (log, result) =>
      match result with
      | .error e => .done (log, .error e)
      | .ok () => (programOf run ops).bind fun ended => .done (.after log ended)

end

/-- The script as the body of a transaction. Its result is the number of the run. -/
def body (ops : List ScriptOp) : Body (List LogEntry) Nat := fun run =>
  (programOf run ops).bind fun (log, result) => .done (log, result.map fun _ => run.number)

end ScriptOp

end DocumentStore
