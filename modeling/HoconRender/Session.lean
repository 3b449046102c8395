import HoconRender.CommandLine.Run

/-
Sessions: a world that changes, and one slot for the configuration that a whole program shares.
Configurations are told apart by numbers, given in the order in which they are made.
-/
namespace HoconRender

structure Installed where
  number : Nat
  config : Config
deriving DecidableEq, Repr

structure Session where
  world : World
  slot : Option Installed
  made : Nat
deriving Repr

inductive WorldChange where
  | write (location : Location) (bytes : List Nat)
  | makeDirectory (location : Location)
  | remove (location : Location)
  | enter (location : Location)
  | set (name value : Text)
  | unset (name : Text)
deriving Repr

inductive Event where
  | change (change : WorldChange)
  | load (request : Request)
  | getConfig
  | setConfig (members : Members)
  | resetConfig
  | parse (line : List Text)
  | run (line : List Text)

inductive Answer where
  | done
  | loaded (traced : Traced Installed)
  | built (result : Except Config.Fault Installed)
  | parsed (result : Except CommandLine.Stop CommandLine.Invocation)
  | ran (run : CommandLine.Run)

namespace World

def apply (world : World) : WorldChange → World
  | .write location bytes => { world with files := world.files.write location bytes }
  | .makeDirectory location => { world with files := world.files.makeDirectory location }
  | .remove location => { world with files := world.files.remove location }
  | .enter location => { world with directory := location }
  | .set name value =>
    { world with environment := world.environment.put name.stored value.stored }
  | .unset name => { world with environment := world.environment.erase name.stored }

end World

namespace Session

def start (world : World) : Session := ⟨world, none, 0⟩

def make (session : Session) (config : Config) : Session × Installed :=
  ({ session with made := session.made + 1 }, ⟨session.made, config⟩)

def install (session : Session) (installed : Installed) : Session :=
  { session with slot := some installed }

def load (session : Session) (request : Request) : Session × Traced Installed :=
  let traced := HoconRender.load session.world request
  match traced.result with
  | .ok config =>
    let (session, installed) := session.make config
    (session, ⟨traced.log, .ok installed⟩)
  | .error failure => (session, ⟨traced.log, .error failure⟩)

/-- The shared configuration; while there is none, one is loaded. -/
def getConfig (session : Session) : Session × Traced Installed :=
  match session.slot with
  | some installed => (session, .ok installed)
  | none =>
    let (session, traced) := session.load .plain
    match traced.result with
    | .ok installed => (session.install installed, traced)
    | .error _ => (session, traced)

def setConfig (session : Session) (members : Members) : Session × Except Config.Fault Installed :=
  match Config.build session.world.environment members with
  | .ok config =>
    let (session, installed) := session.make config
    (session.install installed, .ok installed)
  | .error fault => (session, .error fault)

def step (session : Session) : Event → Session × Answer
  | .change change => ({ session with world := session.world.apply change }, .done)
  | .load request => let (session, traced) := session.load request; (session, .loaded traced)
  | .getConfig => let (session, traced) := session.getConfig; (session, .loaded traced)
  | .setConfig members => let (session, result) := session.setConfig members; (session, .built result)
  | .resetConfig => ({ session with slot := none }, .done)
  | .parse line => (session, .parsed (CommandLine.parse line))
  | .run line => (session, .ran (CommandLine.run session.world line))

def steps (session : Session) : List Event → Session × List Answer
  | [] => (session, [])
  | event :: rest =>
    let (session, answer) := session.step event
    let (session, answers) := session.steps rest
    (session, answer :: answers)

end Session
end HoconRender
