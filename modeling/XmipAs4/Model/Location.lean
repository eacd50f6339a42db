import XmipAs4.Model.Transport

/-!
# Locations

`settings.rs`, and of `lib.rs` what a Location is used through: the settings the transport
declares, the transport made of what was read of them, and the `receive_up_to` and
`send_from` of `Transport`.

What reads the settings is `xcore::settings`, so what it read is an argument, `Read`.  A
timeout is read by the transport's carriers alone and is left out with them.
-/

namespace As4

open Multipart (Bytes)

/-! ## Settings -/

/-- The Locations a setting applies to. -/
inductive Applies where
  | Send
  | Receive
  | Both
  deriving DecidableEq

/-- What a setting holds. -/
inductive Kind where
  | Text
  | Duration
  deriving DecidableEq

/-- Whether a setting must be given, and what it is where it is not. -/
inductive Presence where
  | Required
  | Default (text : String)
  | Optional
  deriving DecidableEq

/-- One setting, less the text that says what it means. -/
structure Setting where
  name : String
  kind : Kind
  presence : Presence
  applies : Applies
  deriving DecidableEq

/-- The settings of a Location (`SETTINGS` in the source). -/
def settings : List Setting :=
  [⟨"party_id", .Text, .Required, .Both⟩,
    ⟨"to_party_id", .Text, .Required, .Send⟩,
    ⟨"service", .Text, .Default testService, .Send⟩,
    ⟨"action", .Text, .Default testAction, .Send⟩,
    ⟨"timeout", .Duration, .Optional, .Both⟩]

/-- Texts as they were read of the settings given. -/
structure Read where
  text : String → String
  optionalText : String → Option String

namespace As4Transport

/-- The transport of a Location: unsigned until its credentials supply the certificate. -/
def configured (now : Moment) (address : String) (settings : Read) : Result As4Transport :=
  let transport :=
    new now address (settings.text "party_id") ((settings.optionalText "to_party_id").getD "")
  .ok (match settings.optionalText "service", settings.optionalText "action" with
    | some service, some action => transport.under service action
    | _, _ => transport)

end As4Transport

/-! ## Sending and receiving -/

/-- What is sent: its bytes as they are gathered, and the key it is delivered under. -/
structure Outgoing where
  gathered : Result Bytes
  key : Option String

namespace As4Transport

variable (L : Estate) (t : As4Transport)

/-- The next message from whichever Party posts first, or nothing where it was seen before;
however many are asked for, one is taken. -/
def receiveUpTo (now : Moment) (arrival : Arrival) (_most : ℕ) :
    Result (List Arrived) × Option Response :=
  match t.takeNext L now arrival with
  | (said, answer) =>
    ((do
      let taken ← said
      .ok (taken.map fun taken => taken.2).toList), answer)

/-- The payload gathered and posted under its key. -/
def sendFrom (now later : Moment) (exchange : Endpoint → Request → Result Response)
    (target : String) (outgoing : Outgoing) : Result Unit := do
  let bytes ← outgoing.gathered
  t.post L now later exchange target bytes outgoing.key

end As4Transport

end As4
