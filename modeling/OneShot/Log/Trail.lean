import OneShot.Exchange.Connection
import OneShot.Log
import OneShot.Server

/-! # What calls and servers log

* `Outcome.trail`         the records of a call, by its outcome
* `Server.Effect.trail`   the records of a server, by what it does
-/

namespace OneShot

/-- The records of a call that was made on behalf of a user, who may have cancelled it. -/
def Outcome.trail (o : Outcome Message) : List LogRecord :=
  let connecting : LogRecord := ⟨.debug, .connection⟩
  let sent : LogRecord := ⟨.trace, .connection⟩
  let received : LogRecord := ⟨.trace, .connection⟩
  let cancelling : LogRecord := ⟨.warn, .program⟩
  let ending : List LogRecord := [⟨.debug, .connection⟩, ⟨.debug, .client⟩]
  match o with
  | .ok _ | .error (.parse _) => [connecting, sent, received] ++ ending
  | .error (.read failure) =>
    [connecting, sent] ++ (if failure.kind = .interrupted then [cancelling] else []) ++ ending
  | .error (.write _) => connecting :: ending
  | .error (.connect _ _) | .error (.invalidState _ _) => [connecting]
  | .waiting => [connecting, sent]

namespace Server

/-- The record of a server that has started. -/
def startRecord : LogRecord := ⟨.info, .server⟩

/-- The record of the end of a connection. -/
def closingTrail (c : Closing) : List LogRecord :=
  match c.result with
  | .ok _ => [⟨.debug, .server⟩]
  | .error _ => [⟨.warn, .server⟩]

/-- The records of what a server does on a connection. -/
def actTrail : Stage.Act → List LogRecord
  | .receives _ => [⟨.info, .server⟩]
  | .sends _ => []
  | .closes c => closingTrail c
  | .aborts _ => []

/-- The records of what a server does. -/
def Effect.trail : Effect → List LogRecord
  | .accepts _ => [⟨.debug, .server⟩]
  | .reports _ => [⟨.warn, .server⟩]
  | .does _ act => actTrail act
  | .stopsListening => [⟨.info, .server⟩]
  | .stops => [⟨.info, .server⟩]

end Server

end OneShot
