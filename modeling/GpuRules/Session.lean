import GpuRules.Config.Source

/-!
Sessions. A session has one current rule set. A load or a publication that succeeds puts another in
its place; one that fails leaves it. Rule sets that were held stay as they are.
-/

namespace GpuRules

/-- A rule set and its place among those of a session, of which the first has the place zero. Two
with one place are the same one, and two with different places are not, however alike. -/
structure Published where
  serial : Nat
  set : RuleSet
  deriving Inhabited

def Published.isSame (a b : Published) : Bool := a.serial == b.serial

structure Session where
  /-- At first an empty rule set. -/
  current : Published := ⟨0, {}⟩
  held : List Published := []

inductive Command where
  | load (options : LoadOptions) (tree : Json)
  | loadText (options : LoadOptions) (text : String)
  | publish (set : RuleSet)
  | notify (hardware : Hardware)
  | current
  | hold

inductive Reply where
  | published (set : Published)
  | failed (error : SourceError)
  | evaluated (evaluation : Evaluation)
  | current (set : Published)
  | held (index : Nat)

namespace Session

open Config (Report)

def publish (session : Session) (set : RuleSet) : Session × Reply × List Event :=
  let published : Published := ⟨session.current.serial + 1, set⟩
  ({ session with current := published }, .published published,
    [.published set.version set.rules.length set.maxId])

def publishRead (session : Session) (report : Report SourceError RuleSet) :
    Session × Reply × List Event :=
  match report.outcome with
  | .ok set =>
    let (session, reply, events) := session.publish set
    (session, reply, report.events ++ events)
  | .error error => (session, .failed error, report.events)

def step (session : Session) : Command → Session × Reply × List Event
  | .load options tree => session.publishRead ((RuleSet.ofTree options tree).mapError .load)
  | .loadText options text => session.publishRead (RuleSet.ofText options text)
  | .publish set => session.publish set
  | .notify hardware => (session, .evaluated (session.current.set.evaluate hardware), [])
  | .current => (session, .current session.current, [])
  | .hold =>
    ({ session with held := session.held ++ [session.current] }, .held session.held.length, [])

end Session

end GpuRules
