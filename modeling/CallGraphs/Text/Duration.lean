/-!
# Durations

A duration in words, in the largest unit of which there is more than one and
a half.
-/

namespace CallGraphs

/-- The units of time, from the largest: their length in milliseconds and their names. -/
def timeUnits : List (Nat × String) :=
  [(31536000000, "year"), (604800000, "week"), (86400000, "day"), (3600000, "hour"),
   (60000, "minute"), (1000, "second")]

/-- The quotient, rounded to the nearest whole number, a half upwards. -/
def nearestQuotient (n d : Nat) : Nat := (2 * n + d) / (2 * d)

/-- So many of a unit. -/
def countedUnit (n : Nat) (unit : String) : String :=
  toString n ++ " " ++ unit ++ (if n = 1 then "" else "s")

/-- A duration in one of the units; of all units but the smallest there are at least two. -/
def durationIn (milliseconds : Nat) : List (Nat × String) → String
  | [] => ""
  | [(length, unit)] => countedUnit (nearestQuotient milliseconds length) unit
  | (length, unit) :: (next, name) :: rest =>
    if length + length / 2 ≤ milliseconds + next / 2 then
      countedUnit (max 2 (nearestQuotient milliseconds length)) unit
    else durationIn milliseconds ((next, name) :: rest)

/-- A duration in words. -/
def durationText (milliseconds : Nat) : String := durationIn milliseconds timeUnits

end CallGraphs
