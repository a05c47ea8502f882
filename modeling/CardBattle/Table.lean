import CardBattle.Script.Run

/-!
# The table

Rules are carried out at a table: the session, and the requests made to the chooser so far. What
stays fixed during an action is its context. A step that fails leaves the table as it stood at that
moment.
-/

namespace CardBattle

/-- A clock that counts milliseconds. It is read anew at every step and may show another time at
each. Reading 0 is that of refused actions; reading `n + 1` is taken by the rules when they have
made `n` entries. -/
structure Clock where
  time : Nat → Nat

namespace Clock

def still (now : Nat) : Clock :=
  ⟨fun _ => now⟩

instance : Coe Nat Clock := ⟨still⟩

end Clock

/-- How many entries the rules have made. Refused actions are logged by the engine. -/
def Session.noted (s : Session) : Nat :=
  s.log.countP fun e => decide (e.action ≠ .failure)

/-- What an action can rely on: the definitions of every card that the session refers to, the
settings, the clock, the chooser, and the source of random numbers. -/
structure Context where
  catalog : Catalog
  config : Config
  clock : Clock
  chooser : Chooser
  [random : Random.Source]

def Context.now (ctx : Context) (s : Session) : Nat :=
  ctx.clock.time (s.noted + 1)

/-- A session with the requests made to the chooser, latest first. -/
structure Table where
  session : Session
  asked : List TargetRequest
  deriving DecidableEq

/-- A step at the table that answers or fails, and leaves a table behind in both cases. -/
abbrev Play := EStateM GameError Table

namespace Play

variable {α : Type}

/-- An update of the session as a step at the table. -/
def update (u : Update α) : Play α := fun t =>
  match u t.session with
  | .ok a s => .ok a { t with session := s }
  | .error e s => .error e { t with session := s }

def check (f : Session → Except GameError α) : Play α := fun t =>
  match f t.session with
  | .ok a => .ok a t
  | .error e => .error e t

def view (f : Session → α) : Play α := fun t =>
  .ok (f t.session) t

def change (f : Session → Session) : Play Unit := fun t =>
  .ok () { t with session := f t.session }

end Play

namespace Context

/-- The scene in which a script runs at a table, on a snapshot of the session. -/
def scene (ctx : Context) (t : Table) (invocation : Invocation) : Scene where
  session := t.session
  catalog := ctx.catalog
  chooser := ctx.chooser
  invocation := invocation
  limits := ctx.config.limits

/-- Runs a script at a table; only the requests to the chooser change. -/
def invoke (ctx : Context) (script : Script) (invocation : Invocation) (t : Table) :
    Outcome × Table :=
  let (outcome, asked) := script.invoke (ctx.scene t invocation) t.asked
  (outcome, { t with asked })

end Context

end CardBattle
