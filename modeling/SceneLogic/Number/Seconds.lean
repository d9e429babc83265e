import SceneLogic.Number.Binary64

/-!
# Simulated time

Time is counted in seconds, as a binary number.  Time that is beyond all numbers,
or no number at all, stays so whatever is added to it.

## Main definitions

* `Seconds` — an amount of time; `Seconds.add`.
* `Seconds.sixtieth` — the time of one step unless something else is said.
-/

namespace SceneLogic

/-- An amount of time in seconds; none when it is not a finite number. -/
abbrev Seconds := Option Binary64

namespace Seconds

/-- No time. -/
def zero : Seconds := some (.zero false)

/-- The sixtieth part of a second. -/
def sixtieth : Seconds := Binary64.ofRatio? false 1 60

/-- One amount of time after another. -/
def add (a b : Seconds) : Seconds := a.bind fun x => b.bind fun y => x.add? y

end Seconds

end SceneLogic
