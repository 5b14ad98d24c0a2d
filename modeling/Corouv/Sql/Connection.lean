import Corouv.Library.Transition
import Corouv.Sql.ConnectionInfo

/-!
# The driver of a connection

`Connection::connect` creates a driver, waits until it has connected, puts it and its
parameters in the place of those before, and closes the one it has replaced.  `close` takes the
driver away and closes it, and `query` runs on the driver it has found.  The mutex is held only
while the pointer is read or replaced.  A synchronous driver works on the threads of libuv: an
operation on it is posted and begins when a thread takes it up.  An asynchronous one begins at
once.  The calls are not cancelled.
-/

namespace Corouv.Sql

/-- What the factory registered for a scheme does. -/
inductive Created where
  | null
  | throws (error : Exn)
  | driver (async : Bool)

def kMissingDriverMessage : String :=
  "corouv::sql no driver registered for scheme"

/-- The characters of a byte string, for the text of an exception. -/
def characters (text : Bytes) : String :=
  String.ofList (text.map fun byte => Char.ofNat byte.toNat)

/-- `create_driver`, with the factories of the registry; whether the driver is asynchronous. -/
def createDriver (registered : Bytes → Option Created) (scheme : Bytes) : Except Exn Bool :=
  match registered (schemeKey scheme) with
  | none => .error (.invalidArgument (kMissingDriverMessage ++ ": " ++ characters scheme))
  | some .null => .error (.logic "corouv::sql driver factory returned null")
  | some (.throws error) => .error error
  | some (.driver async) => .ok async

/-- What `connect` makes of its argument before it waits for the driver. -/
def prepare (registered : Bytes → Option Created) (info : ConnectionInfo) :
    Except Exn (ConnectionInfo × Bool) := do
  let info ←
    if info.backend = .unknown then
      if info.scheme.isEmpty then
        throw (.invalidArgument "corouv::sql connect requires backend or scheme")
      else pure { info with backend := backendFromScheme info.scheme }
    else pure info
  let info :=
    if info.scheme.isEmpty then { info with scheme := backendName info.backend } else info
  let async ← createDriver registered info.scheme
  pure (info, async)

inductive Status where
  | connecting
  | connected
  | failed
  deriving DecidableEq

structure Driver where
  async : Bool
  /-- The parameters it connects with. -/
  info : ConnectionInfo
  status : Status := .connecting
  /-- How often its close has been called. -/
  closes : ℕ := 0

inductive Operation where
  | query
  | close
  deriving DecidableEq

/-- Where a call stands. -/
inductive Phase where
  /-- It waits for its driver to connect. -/
  | connecting (driver : ℕ)
  /-- Its driver has connected, and it has not gone on. -/
  | connected (driver : ℕ)
  /-- No thread has taken up its operation. -/
  | posted (operation : Operation) (driver : ℕ)
  | running (operation : Operation) (driver : ℕ)
  | returned
  | threw (error : Exn)

structure Connection where
  driver : Option ℕ := none
  info : ConnectionInfo := {}
  /-- Every driver that was created for the connection, known by its place. -/
  drivers : List Driver := []
  calls : List Phase := []

inductive ConnectionEvent where
  | connect (info : ConnectionInfo) (registered : Bytes → Option Created)
  /-- The connect of a driver ends, with an exception or without. -/
  | connectEnds (call : ℕ) (error : Option Exn)
  | goesOn (call : ℕ)
  | query
  | close
  | begins (call : ℕ)
  | ends (call : ℕ) (error : Option Exn)

namespace Connection

def put (state : Connection) (call : ℕ) (phase : Phase) : Connection :=
  { state with calls := state.calls.set call phase }

def add (state : Connection) (phase : Phase) : Connection :=
  { state with calls := state.calls ++ [phase] }

/-- The critical sections: the driver and the parameters are replaced. -/
def setCurrent (state : Connection) (driver : Option ℕ) (info : ConnectionInfo) : Connection :=
  { state with driver, info }

def setDriver (state : Connection) (id : ℕ) (driver : Driver) : Connection :=
  { state with drivers := state.drivers.set id driver }

/-- The driver's function is called. -/
def start (state : Connection) (operation : Operation) (id : ℕ) (driver : Driver) : Connection :=
  match operation with
  | .query => state
  | .close => state.setDriver id { driver with closes := driver.closes + 1 }

/-- A call hands an operation to a driver. -/
def hand (state : Connection) (operation : Operation) (id : ℕ) : Option (Connection × Phase) :=
  (state.drivers[id]?).map fun driver =>
    if driver.async then (state.start operation id driver, .running operation id)
    else (state, .posted operation id)

def ended : Option Exn → Phase
  | none => .returned
  | some error => .threw error

def step (state : Connection) : ConnectionEvent → Option Connection
  | .connect info registered =>
      match prepare registered info with
      | .error error => some (state.add (.threw error))
      | .ok (info, async) =>
          some (add { state with drivers := state.drivers ++ [{ async, info }] }
            (.connecting state.drivers.length))
  | .connectEnds call error =>
      match state.calls[call]? with
      | some (.connecting id) =>
          (state.drivers[id]?).map fun driver =>
            match error with
            | none =>
                (state.setDriver id { driver with status := .connected }).put call (.connected id)
            | some error =>
                (state.setDriver id { driver with status := .failed }).put call (.threw error)
      | _ => none
  | .goesOn call =>
      match state.calls[call]? with
      | some (.connected id) =>
          (state.drivers[id]?).bind fun driver =>
            let swapped := state.setCurrent (some id) driver.info
            match state.driver with
            | none => some (swapped.put call .returned)
            | some old => (swapped.hand .close old).map fun next => next.1.put call next.2
      | _ => none
  | .query =>
      match state.driver with
      | none => some (state.add (.threw (.logic "corouv::sql::Connection is not connected")))
      | some id => (state.hand .query id).map fun next => next.1.add next.2
  | .close =>
      let cleared := state.setCurrent none {}
      match state.driver with
      | none => some (cleared.add .returned)
      | some id => (cleared.hand .close id).map fun next => next.1.add next.2
  | .begins call =>
      match state.calls[call]? with
      | some (.posted operation id) =>
          (state.drivers[id]?).map fun driver =>
            (state.start operation id driver).put call (.running operation id)
      | _ => none
  | .ends call error =>
      match state.calls[call]? with
      | some (.running _ _) => some (state.put call (ended error))
      | _ => none

inductive Move (state : Connection) : ConnectionEvent → Connection → Prop
  | refused {info : ConnectionInfo} {registered : Bytes → Option Created} {error : Exn}
      (bad : prepare registered info = .error error) :
      Move state (.connect info registered) (state.add (.threw error))
  | creates {info prepared : ConnectionInfo} {registered : Bytes → Option Created} {async : Bool}
      (good : prepare registered info = .ok (prepared, async)) :
      Move state (.connect info registered)
        (add { state with drivers := state.drivers ++ [{ async, info := prepared }] }
          (.connecting state.drivers.length))
  | connects {call id : ℕ} {driver : Driver} (waits : state.calls[call]? = some (.connecting id))
      (found : state.drivers[id]? = some driver) :
      Move state (.connectEnds call none)
        ((state.setDriver id { driver with status := .connected }).put call (.connected id))
  | fails {call id : ℕ} {driver : Driver} {error : Exn}
      (waits : state.calls[call]? = some (.connecting id))
      (found : state.drivers[id]? = some driver) :
      Move state (.connectEnds call (some error))
        ((state.setDriver id { driver with status := .failed }).put call (.threw error))
  | installs {call id : ℕ} {driver : Driver} (waits : state.calls[call]? = some (.connected id))
      (found : state.drivers[id]? = some driver) (vacant : state.driver = none) :
      Move state (.goesOn call)
        ((state.setCurrent (some id) driver.info).put call .returned)
  | replaces {call id old : ℕ} {driver : Driver} {next : Connection} {phase : Phase}
      (waits : state.calls[call]? = some (.connected id))
      (found : state.drivers[id]? = some driver) (current : state.driver = some old)
      (handed : (state.setCurrent (some id) driver.info).hand .close old = some (next, phase)) :
      Move state (.goesOn call) (next.put call phase)
  | unconnected (vacant : state.driver = none) :
      Move state .query (state.add (.threw (.logic "corouv::sql::Connection is not connected")))
  | queries {id : ℕ} {next : Connection} {phase : Phase} (current : state.driver = some id)
      (handed : state.hand .query id = some (next, phase)) :
      Move state .query (next.add phase)
  | closesNothing (vacant : state.driver = none) :
      Move state .close ((state.setCurrent none {}).add .returned)
  | closes {id : ℕ} {next : Connection} {phase : Phase} (current : state.driver = some id)
      (handed : (state.setCurrent none {}).hand .close id = some (next, phase)) :
      Move state .close (next.add phase)
  | begins {call id : ℕ} {operation : Operation} {driver : Driver}
      (waits : state.calls[call]? = some (.posted operation id))
      (found : state.drivers[id]? = some driver) :
      Move state (.begins call)
        ((state.start operation id driver).put call (.running operation id))
  | ends {call id : ℕ} {operation : Operation} {error : Option Exn}
      (waits : state.calls[call]? = some (.running operation id)) :
      Move state (.ends call error) (state.put call (ended error))

variable {state next : Connection}

/-- Everything a step of the connection can do. -/
theorem move_of_step {event : ConnectionEvent} (taken : state.step event = some next) :
    Move state event next := by
  cases event with
  | connect _ _ =>
      simp only [step] at taken
      split at taken
      next bad =>
        cases taken
        exact .refused bad
      next good =>
        cases taken
        exact .creates good
  | connectEnds _ error =>
      simp only [step] at taken
      split at taken
      next waits =>
        rcases Option.map_eq_some_iff.mp taken with ⟨_, found, made⟩
        cases error with
        | none =>
            cases made
            exact .connects waits found
        | some _ =>
            cases made
            exact .fails waits found
      · cases taken
  | goesOn _ =>
      simp only [step] at taken
      split at taken
      next waits =>
        rcases Option.bind_eq_some_iff.mp taken with ⟨_, found, swapped⟩
        split at swapped
        next vacant =>
          cases swapped
          exact .installs waits found vacant
        next current =>
          rcases Option.map_eq_some_iff.mp swapped with ⟨⟨_, _⟩, handed, rfl⟩
          exact .replaces waits found current handed
      · cases taken
  | query =>
      simp only [step] at taken
      split at taken
      next vacant =>
        cases taken
        exact .unconnected vacant
      next current =>
        rcases Option.map_eq_some_iff.mp taken with ⟨⟨_, _⟩, handed, rfl⟩
        exact .queries current handed
  | close =>
      simp only [step] at taken
      split at taken
      next vacant =>
        cases taken
        exact .closesNothing vacant
      next current =>
        rcases Option.map_eq_some_iff.mp taken with ⟨⟨_, _⟩, handed, rfl⟩
        exact .closes current handed
  | begins _ =>
      simp only [step] at taken
      split at taken
      next waits =>
        rcases Option.map_eq_some_iff.mp taken with ⟨_, found, rfl⟩
        exact .begins waits found
      · cases taken
  | ends _ _ =>
      simp only [step] at taken
      split at taken
      next waits =>
        cases taken
        exact .ends waits
      · cases taken

variable {operation : Operation} {id : ℕ} {phase : Phase}

theorem hand_cases (handed : state.hand operation id = some (next, phase)) :
    ∃ driver, state.drivers[id]? = some driver ∧
      (next = state.start operation id driver ∧ phase = .running operation id ∨
        next = state ∧ phase = .posted operation id) := by
  rcases Option.map_eq_some_iff.mp handed with ⟨driver, found, made⟩
  refine ⟨driver, found, ?_⟩
  split at made
  · exact .inl (Prod.mk.inj made.symm)
  · exact .inr (Prod.mk.inj made.symm)

@[simp]
theorem start_driver (state : Connection) (operation : Operation) (id : ℕ) (driver : Driver) :
    (state.start operation id driver).driver = state.driver := by
  cases operation <;> rfl

@[simp]
theorem start_info (state : Connection) (operation : Operation) (id : ℕ) (driver : Driver) :
    (state.start operation id driver).info = state.info := by
  cases operation <;> rfl

@[simp]
theorem start_calls (state : Connection) (operation : Operation) (id : ℕ) (driver : Driver) :
    (state.start operation id driver).calls = state.calls := by
  cases operation <;> rfl

theorem hand_same (handed : state.hand operation id = some (next, phase)) :
    next.driver = state.driver ∧ next.info = state.info ∧ next.calls = state.calls := by
  rcases hand_cases handed with ⟨_, -, ⟨rfl, -⟩ | ⟨rfl, -⟩⟩
  · exact ⟨start_driver _ _ _ _, start_info _ _ _ _, start_calls _ _ _ _⟩
  · exact ⟨rfl, rfl, rfl⟩

end Connection

end Corouv.Sql
