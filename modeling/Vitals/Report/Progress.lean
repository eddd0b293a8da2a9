/-
  What a watcher of a session is shown as its events come in.

  * `Report.statsProgress`: while the stats history is followed.
  * `Report.requestsProgress`: while the request log is followed.
-/
import Vitals.Report.Data
import Vitals.Report.Tables

namespace Vitals.Report

open Text

/-- How a report is written. -/
structure Form where
  /-- As data, one event a line. -/
  json : Bool
  color : Bool
  deriving DecidableEq, Repr

/-- An event as data; the server's clock is not shown. -/
def dataProgress? : Event → Option String
  | .serverTime _ => none
  | e => some (eventLine e)

/-- A page of intervals under a title. -/
def page (color : Bool) (title : String) (stats : List Stat) : Except Overflow String := do
  let heading := Style.bold.paint color s!"{title}: {stats.length} intervals"
  return s!"{heading}\n{(← statTable color stats).render}"

/-- What an event shows to those who follow the stats history. -/
def statsProgress (form : Form) (e : Event) : Except Overflow (Option String) :=
  if form.json then .ok (dataProgress? e)
  else
    match e with
    | .statsSeeded stats => some <$> page form.color "Snapshot" stats
    | .statsPrepended stats => some <$> page form.color "Older page" stats
    | .statsAppended stats => (fun t => some t.render) <$> statTable form.color stats
    | .historyExhausted =>
      .ok (some (Style.dimmed.paint form.color "No older history on the server"))
    | .closed => .ok (some (Style.yellow.paint form.color "Connection closed"))
    | .serverTime _ | .requestsPrepended _ => .ok none

/-- What an event shows to those who follow the request log. -/
def requestsProgress (form : Form) (e : Event) : List String :=
  match e with
  | .requestsPrepended requests =>
    if form.json then requests.map fun r => (requestData r).compact
    else [(requestTable form.color requests).render]
  | .closed => [if form.json then eventLine e else "Connection closed"]
  | _ => []

end Vitals.Report
