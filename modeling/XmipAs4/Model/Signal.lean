import XmipAs4.Model.Envelope

/-!
# The Signal Message

`signal.rs`: the Receipt or the Error a receiver answers with, written and read.
-/

namespace As4

/-- A body the receiver could not read as AS4. -/
def valueNotRecognized : String := "EBMS:0001"

/-- Any other failure. -/
def other : String := "EBMS:0004"

/-- A sender that could not be authenticated. -/
def failedAuthentication : String := "EBMS:0101"

/-- A message that is AS4 and not one this party takes. -/
def policyNoncompliance : String := "EBMS:0103"

/-- What a receiver said about one message. -/
inductive Signal where
  | Receipt (refTo messageId : String)
  | Error (refTo : Option String) (code description : String)
  deriving DecidableEq

variable (L : Estate)

/-- The reference of a signal to the message it answers, where it names one. -/
def reference : Option String → String
  | some id => "<eb:RefToMessageId>" ++ L.xml.escape id ++ "</eb:RefToMessageId>"
  | none => ""

/-- The `eb:MessageInfo` of a signal: now, a new id, and what it answers. -/
def info (now : Moment) (refTo : Option String) : String :=
  "<eb:MessageInfo>" ++ "<eb:Timestamp>" ++ now.clock ++ "</eb:Timestamp>" ++
    "<eb:MessageId>" ++ L.xml.escape (nextId now) ++ "</eb:MessageId>" ++ reference L refTo ++
    "</eb:MessageInfo>"

namespace Signal

/-- The envelope of a Receipt, the User Message it answers copied in. -/
def receipt (now : Moment) (message : UserMessage) : String :=
  wrap ("<eb:SignalMessage>" ++ info L now (some message.messageId) ++
    "<eb:Receipt>" ++ message.element L ++ "</eb:Receipt>" ++ "</eb:SignalMessage>")

/-- The envelope of an Error. -/
def error (now : Moment) (refTo : Option String) (code description : String) : String :=
  wrap ("<eb:SignalMessage>" ++ info L now refTo ++
    "<eb:Error category=\"Content\" errorCode=\"" ++ L.xml.escape code ++
    "\" origin=\"ebMS\" severity=\"failure\">" ++ "<eb:Description xml:lang=\"en\">" ++
    L.xml.escape description ++ "</eb:Description>" ++ "</eb:Error>" ++ "</eb:SignalMessage>")

/-- The Signal in the text of a `SignalMessage` element. -/
def fromElement (signal : String) : Result Signal := do
  let refTo ← L.xml.text signal "RefToMessageId"
  if (L.xml.content signal "Receipt").isSome then do
    let refTo ← okOr refTo (L.protocolError "a Receipt naming no message")
    let messageId ← L.xml.text signal "MessageId"
    .ok (Receipt refTo (messageId.getD ""))
  else do
    let code ← L.xml.attributeOf signal "Error" "errorCode"
    let code ← okOr code (L.protocolError "a SignalMessage that is neither Receipt nor Error")
    let description ← L.xml.text signal "Description"
    .ok (Error refTo code (description.getD ""))

/-- The Signal an envelope carries. -/
def fromEnvelope (envelope : String) : Result Signal := do
  let signal ← okOr (L.xml.content envelope "SignalMessage")
    (L.protocolError "an answer with no SignalMessage in it")
  fromElement L signal

end Signal

end As4
