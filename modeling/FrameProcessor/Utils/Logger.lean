/-!
# utils/logger - Log levels

The level that a configuration asks for, by the first letter of its name.
-/

namespace FrameProcessor

/-- `LogLevel`, in the order of its numbers. -/
inductive LogLevel where
  | fail
  | error
  | warn
  | info
  | debug
deriving DecidableEq

/-- `string_to_loglevel`: only the first character counts; `INFO` when there is none or it
is another one. -/
def stringToLoglevel (levelStr : String) : LogLevel :=
  match levelStr.toList with
  | [] => .info
  | first :: _ =>
      match first.toUpper with
      | 'F' => .fail
      | 'E' => .error
      | 'W' => .warn
      | 'I' => .info
      | 'D' => .debug
      | _ => .info

end FrameProcessor
