import Constituency.Chart.Basic
import Constituency.Item.Printer

/-
  This file writes charts.

  Key definitions include:
    * `Chart.text`
-/

namespace Constituency

/- A chart as it is written: one item a line. -/
def Chart.text
    {G : Grammar}
    (C : Chart G) : String :=
  "\n".intercalate (C.items.toList.map Item.text)

end Constituency
