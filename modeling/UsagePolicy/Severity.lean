/-! How serious a report is. -/
namespace UsagePolicy

inductive Severity where
  /-- Does not fail a check. -/
  | info
  | warning
  /-- Fails a check. -/
  | error
deriving DecidableEq

namespace Severity

def all : List Severity := [info, warning, error]

def name : Severity → String
  | info => "info"
  | warning => "warning"
  | error => "error"

def ofName? (text : String) : Option Severity := all.find? (·.name == text)

/-- Severities are ordered: info, warning, error. -/
def rank : Severity → Nat
  | info => 0
  | warning => 1
  | error => 2

/-- Whether a severity is strictly above another one. -/
def exceeds (a b : Severity) : Bool := b.rank < a.rank

end Severity

end UsagePolicy
