import CodeAudit.Registry
namespace CodeAudit.Registry

/-- The analyzer of a name, which has to be there. -/
def get (r : Registry) (name : String) : Except Fault Analyzer :=
  match r.get? name with
  | some a => .ok a
  | none => .error (.notRegistered name)

/-- What can be asked of a registry. -/
inductive Operation
  | register (a : Analyzer)
  | tryGet (name : String)
  | get (name : String)
  | contains (name : String)
  | select (extensions requested : List String)
  | size
  /-- The analyzers. -/
  | listing
  /-- The names, one after the other. -/
  | iterate

/-- What a registry answers. -/
inductive Reply
  | done
  | maybe (a : Option Analyzer)
  | analyzer (a : Analyzer)
  | truth (b : Bool)
  | count (n : Nat)
  | analyzers (as : List Analyzer)
  | names (ns : List String)
  | refused (f : Fault)

def Reply.ofExcept {α : Type} (reply : α → Reply) : Except Fault α → Reply
  | .ok a => reply a
  | .error f => .refused f

/-- The registry after an operation, with the answer to it. -/
def step (r : Registry) : Operation → Registry × Reply
  | .register a =>
    match r.register a with
    | .ok next => (next, .done)
    | .error f => (r, .refused f)
  | .tryGet name => (r, .maybe (r.get? name))
  | .get name => (r, .ofExcept .analyzer (r.get name))
  | .contains name => (r, .truth (r.contains name))
  | .select extensions requested => (r, .ofExcept .analyzers (r.select extensions requested))
  | .size => (r, .count r.analyzers.length)
  | .listing => (r, .analyzers r.analyzers)
  | .iterate => (r, .names r.names)

/-- The answers to some operations in turn, each with the registry after it. -/
def session (r : Registry) : List Operation → List (Registry × Reply)
  | [] => []
  | o :: rest => r.step o :: session (r.step o).1 rest

/-- The registry after some operations in turn. -/
def after (r : Registry) (operations : List Operation) : Registry :=
  operations.foldl (fun r o => (r.step o).1) r

end CodeAudit.Registry
