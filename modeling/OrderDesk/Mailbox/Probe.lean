import OrderDesk.Mailbox.Network

/-
  This file defines probes: messages for trying out
  mailboxes. A probe is of one of three kinds and carries a
  number. The component behind a mailbox writes down the
  probes that it handles, and its handlers follow scripts
  that say what else they do.

  Key definitions include:
    * `Probe`
    * `Probe.variant`
    * `Probe.never`
    * `Script`
    * `Script.handler`
    * `Script.catchAll`
    * `Script.impostor`
    * `Conduct.dispose`
-/

namespace OrderDesk

------------------------------------------------------------
-- Probes
------------------------------------------------------------

/- The kinds of probes. -/
inductive ProbeKind where
  | ping
  | pong
  | boom
deriving DecidableEq

namespace ProbeKind

/- The name of a kind. -/
def name :
    ProbeKind → String
| ping => "Ping"
| pong => "Pong"
| boom => "Boom"

end ProbeKind

/- A probe of a kind with a number. -/
structure Probe where
  kind : ProbeKind
  value : Int
deriving DecidableEq

namespace Probe

instance : Payload Probe ProbeKind :=
  ⟨kind, ProbeKind.name⟩

/- The name of the whole family. -/
def familyName : String :=
  "Probe"

/- A probe in words. -/
def toText
    (probe : Probe) : String :=
  probe.kind.name ++ ":" ++ toString probe.value

/- The probes of one kind, seen as their numbers. -/
def variant
    (kind : ProbeKind) : Variant Probe ProbeKind Int where
  kind := kind
  extract probe :=
    if probe.kind = kind then
      .ok probe.value
    else
      .error probe
  embed value := ⟨kind, value⟩

/- A kind of which no probe is, although it claims to be pings. -/
def never : Variant Probe ProbeKind Empty where
  kind := .ping
  extract probe := .error probe
  embed := nofun

end Probe

------------------------------------------------------------
-- Scripts
------------------------------------------------------------

/- How a script lets its handler end. -/
inductive Conduct where
  | succeed
  | fail
  | panicWithText
  | panicWithFixedText
  | panicWithoutText
deriving DecidableEq

namespace Conduct

/- The ending, with a text for what went wrong. -/
def ending
    (failure : String) :
    Conduct → Ending
| succeed => .done
| fail => .failed failure
| panicWithText => .panicked (some failure)
| panicWithFixedText => .panicked (some "static text")
| panicWithoutText => .panicked none

/- The ending is a panic. -/
def panics :
    Conduct → Bool
| succeed => false
| fail => false
| panicWithText => true
| panicWithFixedText => true
| panicWithoutText => true

/- A sink that takes a note. It has no errors but panics. -/
def dispose
    (conduct : Conduct)
    (envelope : Envelope Probe) : Disposal Probe :=
  ⟨[.note ("sink " ++ envelope.payload.toText) none],
    conduct.panics⟩

end Conduct

/-
  What a handler does besides writing down the probe: how it
  ends, how long it rests before, and to whom it passes the
  number on.
-/
structure Script where
  conduct : Conduct
  rest : Option Nat
  next : Option String
deriving DecidableEq

namespace Script

/- What a script makes of a number. -/
def react
    (script : Script)
    (kind : ProbeKind)
    (state : List String)
    (envelope : Envelope Int) : Reaction (List String) Probe :=
  let probe : Probe := ⟨kind, envelope.payload⟩
  let text := probe.toText
  let ending :=
    script.conduct.ending
      (kind.name ++ " failed on " ++ toString probe.value)
  match script.rest with
  | none =>
      Reaction.immediate (state ++ [text])
        (.note text (some envelope.category) ::
          script.next.toList.map fun target =>
            .emit target ⟨.pong, probe.value⟩)
        ending
  | some ms =>
      ⟨state ++ [text], [.note ("begin " ++ text) none], ms,
        ⟨[.note ("end " ++ text) none], ending⟩⟩

/- The handler of a script for the probes of a kind. -/
def handler
    (script : Script)
    (kind : ProbeKind) : Handler (List String) Probe ProbeKind :=
  Handler.typed (Probe.variant kind) kind.name (script.react kind)

/- The handler of a script that never gets to play. -/
def impostor : Handler (List String) Probe ProbeKind :=
  Handler.typed Probe.never "Liar" fun _ envelope =>
    envelope.payload.elim

/-
  The catch-all of a script. It does not rest, and it passes
  on the message itself.
-/
def catchAll
    (script : Script) : Handler (List String) Probe ProbeKind :=
  Handler.catchAll Probe.familyName fun state envelope =>
    let text := "any " ++ envelope.payload.toText
    Reaction.immediate (state ++ [text])
      (.note text (some envelope.category) ::
        script.next.toList.map fun target => .pass target envelope)
      (script.conduct.ending
        ("any failed on " ++ toString envelope.payload.value))

end Script

end OrderDesk
