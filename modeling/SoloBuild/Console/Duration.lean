/-!
# Durations

Durations are shown in minutes and seconds from one minute on, in seconds with two places from one
second on, and in milliseconds below that. Places beyond the last shown are cut off.
-/

namespace SoloBuild.Console

/-- A number below one hundred, with two digits. -/
def twoDigits (n : Nat) : String :=
  if n < 10 then "0" ++ toString n else toString n

/-- The text of a duration in milliseconds. -/
def formatDuration (ms : Nat) : String :=
  let seconds := ms / 1000
  let rest := ms % 1000
  if 60 ≤ seconds then toString (seconds / 60) ++ "m " ++ toString (seconds % 60) ++ "s"
  else if 0 < seconds then toString seconds ++ "." ++ twoDigits (rest / 10) ++ "s"
  else toString rest ++ "ms"

end SoloBuild.Console
