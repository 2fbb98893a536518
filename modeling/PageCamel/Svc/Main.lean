import PageCamel.Lib.Octets
import PageCamel.Lib.Rotation

/-!
The service supervisor (`SVC/Main.pm`): each call of `work` checks the applications in turn
until one of them needed work, and the next call goes on behind it.
-/

namespace PageCamel.Svc
open PageCamel.Lib

/-! ### Applications -/

/-- What the clients are told about an application. -/
inductive Light where
  | off
  | on
  | blue
  /-- The lifetick was stale. -/
  | purple
  /-- A manual reset. -/
  | reset
  /-- The false value of `defined`. -/
  | blank
  deriving DecidableEq, Repr

structure App where
  shortName : Octets
  /-- The largest age of a lifetick in seconds; none is checked when it is zero or missing. -/
  lifetick : Option Nat := none
  handle : Option Nat := none
  /-- The time of the last lifetick, or -1 when the application asked not to be checked. -/
  apptick : Option Int := none
  status : Bool := false
  light : Light := .off
  deriving DecidableEq, Repr

/-- What the check of an application finds outside: the setting (`none` when it cannot be
read), the process table and the clock, and the process that a `fork` gives. -/
structure Probe where
  settingvalue : Option Bool
  running : Bool
  now : Int
  pid : Nat
  deriving DecidableEq, Repr

def startApp (probe : Probe) (app : App) : App :=
  { app with
    handle := some probe.pid
    apptick := some (if 0 < app.lifetick.getD 0 then probe.now else -1)
    status := true
    light := .on }

def stopApp (app : App) : App := { app with handle := none, status := false, light := .off }

/-- The process is killed, the handle stays. -/
def killApp (app : App) : App := if app.handle = none then app else { app with light := .blue }

/-- Whether there was something to do, and the application afterwards. -/
def checkApp (probe : Probe) (app : App) : Bool × App :=
  match probe.settingvalue with
  | none => (false, app)
  | some shouldrun =>
      match app.handle with
      | none => if shouldrun then (true, startApp probe { app with light := .blue }) else (false, app)
      | some _ =>
          -- `stop_app` returns nothing
          if !shouldrun then (false, stopApp app)
          else if !probe.running then
            (true, startApp probe { app with light := .blue, status := false })
          else if app.lifetick.getD 0 = 0 then (false, { app with status := true })
          else if app.apptick.getD 0 = -1 then (false, { app with light := .on, status := true })
          else if app.lifetick.getD 0 < probe.now - app.apptick.getD 0 then
            (true, { killApp { app with status := false } with light := .purple })
          else (false, app)

/-! ### Commands of the clients -/

inductive Command where
  | setAll
  | restart (service : Octets) (settings : Nat → Option Bool)
  /-- The setting of a service is changed. -/
  | enable (service : Octets)
  | disable (service : Octets)
  | lifetick (processid : Nat) (apptick : Option Int)
  /-- The connection was lost, and the supervisor listens again. -/
  | disconnect
  | other

structure Supervisor where
  apps : List App
  nextappindex : Option Nat := none

namespace Supervisor

def handleCommand (command : Command) (s : Supervisor) : Nat × Supervisor :=
  match command with
  | .setAll =>
      (1, { s with apps := s.apps.map fun app =>
        { app with light := if app.handle = none then .blank else .on } })
  | .restart service settings =>
      (1, { s with apps := s.apps.mapIdx fun i app =>
        if app.shortName = service ∧ (settings i).getD true then
          { killApp app with light := .reset }
        else app })
  | .enable _ | .disable _ => (1, s)
  | .lifetick processid apptick =>
      (1, { s with apps := s.apps.map fun app =>
        if app.handle = some processid ∧ app.apptick ≠ none then { app with apptick } else app })
  | .disconnect | .other => (0, s)

/-- The number of commands that were handled. -/
def handleClacksCommands : List Command → Supervisor → Nat × Supervisor
  | [], s => (0, s)
  | command :: commands, s =>
      let (count, s) := s.handleCommand command
      let (counts, s) := s.handleClacksCommands commands
      (count + counts, s)

/-! ### Work -/

def index (s : Supervisor) : Nat := s.nextappindex.getD 0

/-- The body of the loop: the index goes on before the application is checked. -/
def checkNext (probe : Probe) (s : Supervisor) : Bool × Supervisor :=
  let next := if s.index + 1 = s.apps.length then 0 else s.index + 1
  match s.apps[s.index]? with
  | none => (false, { s with nextappindex := some next })
  | some app =>
      let (didwork, app) := checkApp probe app
      (didwork, { apps := s.apps.set s.index app, nextappindex := some next })

/-- The loop: the applications that are checked, and whether there was work to do. -/
def checkApps (currentappindex : Nat) :
    Nat → (Nat → Probe) → Supervisor → Option (List Nat × Bool × Supervisor)
  | 0, _, _ => none
  | fuel + 1, probes, s =>
      match s.checkNext (probes 0) with
      | (true, s') => some ([s.index], true, s')
      | (false, s') =>
          if s'.index = currentappindex then some ([s.index], false, s')
          else
            match s'.checkApps currentappindex fuel fun k => probes (k + 1) with
            | none => none
            | some (checked, result) => some (s.index :: checked, result)

/-- What a call of `work` meets: commands, the probes in the order of the checks, and the
settings at its end. -/
structure Call where
  commands : List Command
  probes : Nat → Probe
  settings : Nat → Option Bool

def showStates (settings : Nat → Option Bool) (s : Supervisor) : Supervisor :=
  { s with apps := s.apps.mapIdx fun i app =>
    { app with light :=
        if app.handle ≠ none then .on else if (settings i).getD false then .blue else .off } }

structure Work where
  checked : List Nat
  workCount : Nat
  deriving DecidableEq, Repr

def work (fuel : Nat) (call : Call) (s : Supervisor) : Option (Work × Supervisor) :=
  let s := { s with nextappindex := some s.index }
  let (workCount, s) := s.handleClacksCommands call.commands
  match s.checkApps s.index fuel call.probes with
  | none => none
  | some (checked, didwork, s) =>
      some (⟨checked, workCount + if didwork then 1 else 0⟩, s.showStates call.settings)

variable {s : Supervisor}

open Rotation

end Supervisor

end PageCamel.Svc
