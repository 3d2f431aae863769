import Runbook.Template.Generator

/-!
# Fixed sample data

A source of sample data that gives the same values every time. Rehearsals use it, so that two
rehearsals of one definition agree.
-/

namespace Runbook.Rehearsal

/-- The fixed sample data. -/
def sampleData : SampleData where
  name := "Ada Lovelace"
  firstName := "Ada"
  lastName := "Lovelace"
  email := "ada@example.org"
  phone := "+1-555-0100"
  address := "1 Main St\nApt 2\nSpringfield, ZZ 00000"
  company := "Analytical Engines"
  username := "ada_l"
  password := fun length => "".pushn 'p' length
  uuid := "00000000-0000-4000-8000-000000000000"
  number := fun low high => low * 10 + high
  date := "1999-12-31"

end Runbook.Rehearsal
