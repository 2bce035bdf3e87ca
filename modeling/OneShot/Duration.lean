/-! # Durations

Time is counted in whole milliseconds. `Duration.text` is the wording used in messages: below one
second in milliseconds, else in seconds with as many decimals as are needed.
-/

namespace OneShot.Duration

/-- The thousandths of a second after the point, without zeros at the end. -/
def decimals (thousandths : Nat) : String :=
  if thousandths = 0 then ""
  else if thousandths % 100 = 0 then "." ++ toString (thousandths / 100)
  else if thousandths % 10 = 0 then
    "." ++ toString (thousandths / 100) ++ toString (thousandths / 10 % 10)
  else
    "." ++ toString (thousandths / 100) ++ toString (thousandths / 10 % 10) ++
      toString (thousandths % 10)

/-- The wording of a duration. -/
def text (ms : Nat) : String :=
  if ms = 0 then "0ns"
  else if ms < 1000 then toString ms ++ "ms"
  else toString (ms / 1000) ++ decimals (ms % 1000) ++ "s"

end OneShot.Duration
