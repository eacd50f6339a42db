import XmipAs4.Model.Estate

/-!
# The User Message and its envelope

`envelope.rs`: a User Message as its header describes it, the SOAP envelope it is
written into, and the message read off an envelope.
-/

namespace As4

open Markup (Handle)

/-- The ebMS 3.0 core namespace. -/
def ebms : String := "http://docs.oasis-open.org/ebxml-msg/ebms/v3.0/ns/core/200704/"

/-- The SOAP 1.2 envelope namespace. -/
def soapNamespace : String := "http://www.w3.org/2003/05/soap-envelope"

/-- The content id the payload attachment carries. -/
def payloadCid : String := "payload@xmip"

/-- The service two MSHs exchange under until a P-Mode names one. -/
def testService : String :=
  "http://docs.oasis-open.org/ebxml-msg/ebms/v3.0/ns/core/200704/service"

/-- The action that goes with `testService`. -/
def testAction : String := "http://docs.oasis-open.org/ebxml-msg/ebms/v3.0/ns/core/200704/test"

/-- The role of the party that sends. -/
def initiator : String :=
  "http://docs.oasis-open.org/ebxml-msg/ebms/v3.0/ns/core/200704/initiator"

/-- The role of the party that is sent to. -/
def responder : String :=
  "http://docs.oasis-open.org/ebxml-msg/ebms/v3.0/ns/core/200704/responder"

/-- One User Message as its header describes it. -/
structure UserMessage where
  messageId : String
  timestamp : String
  fromParty : String
  toParty : String
  service : String
  action : String
  conversationId : String
  /-- The content id of the payload part, without `cid:`. -/
  payloadCid : String
  /-- The `type` both party ids carry. -/
  partyType : Option String
  /-- The `type` the service carries. -/
  serviceType : Option String
  agreement : Option String
  properties : List (String × String)
  payloadProperties : List (String × String)
  deriving DecidableEq

/-! ## Ids -/

/-- The id a keyed message carries. -/
def messageIdOf (key : String) : String := key ++ "@xmip"

/-- A message id no other message carries. -/
def nextId (now : Moment) : String := now.random ++ "@xmip"

namespace UserMessage

/-- A message from one party to another, its payload in the attachment `payloadCid`. -/
def new (now : Moment) (fromParty toParty service action : String) : UserMessage where
  messageId := nextId now
  timestamp := now.clock
  fromParty := fromParty
  toParty := toParty
  service := service
  action := action
  conversationId := nextId now
  payloadCid := As4.payloadCid
  partyType := none
  serviceType := none
  agreement := none
  properties := []
  payloadProperties := [("MimeType", "application/octet-stream")]

/-- This message again as a new one. -/
def fresh (m : UserMessage) (now : Moment) : UserMessage :=
  { m with
    messageId := nextId now
    conversationId := nextId now
    timestamp := now.clock }

/-- This message, its id and the conversation it opens formed from the key, where there is one. -/
def keyed (m : UserMessage) : Option String → UserMessage
  | some key => { m with messageId := messageIdOf key, conversationId := messageIdOf key }
  | none => m

end UserMessage

/-! ## Writing -/

variable (L : Estate)

/-- ` type="…"` where a type is given, nothing where none is. -/
def typed : Option String → String
  | some kind => " type=\"" ++ L.xml.escape kind ++ "\""
  | none => ""

/-- Properties as `eb:Property` elements, in order. -/
def propertyElements (properties : List (String × String)) : String :=
  properties.foldl (fun out p =>
    out ++ ("<eb:Property name=\"" ++ L.xml.escape p.1 ++ "\">" ++ L.xml.escape p.2 ++
      "</eb:Property>")) ""

/-- A SOAP 1.2 envelope with the messaging header given and an empty body. -/
def wrap (messaging : String) : String :=
  "<?xml version=\"1.0\" encoding=\"UTF-8\"?>" ++
    "<S12:Envelope xmlns:S12=\"" ++ soapNamespace ++ "\" xmlns:eb=\"" ++ ebms ++ "\">" ++
    "<S12:Header>" ++ "<eb:Messaging S12:mustUnderstand=\"true\">" ++ messaging ++
    "</eb:Messaging>" ++ "</S12:Header>" ++ "<S12:Body/>" ++ "</S12:Envelope>"

namespace UserMessage

/-- The agreement's element, where the message names one. -/
def agreementElement (m : UserMessage) : String :=
  match m.agreement with
  | some agreement => "<eb:AgreementRef>" ++ L.xml.escape agreement ++ "</eb:AgreementRef>"
  | none => ""

/-- The message properties' element, where the message has any. -/
def messageProperties (m : UserMessage) : String :=
  if m.properties.isEmpty then ""
  else "<eb:MessageProperties>" ++ propertyElements L m.properties ++ "</eb:MessageProperties>"

/-- The payload properties' element, where the payload has any. -/
def partProperties (m : UserMessage) : String :=
  if m.payloadProperties.isEmpty then ""
  else "<eb:PartProperties>" ++ propertyElements L m.payloadProperties ++ "</eb:PartProperties>"

/-- The `eb:UserMessage` element alone. -/
def element (m : UserMessage) : String :=
  "<eb:UserMessage>" ++ "<eb:MessageInfo>" ++
    "<eb:Timestamp>" ++ L.xml.escape m.timestamp ++ "</eb:Timestamp>" ++
    "<eb:MessageId>" ++ L.xml.escape m.messageId ++ "</eb:MessageId>" ++ "</eb:MessageInfo>" ++
    "<eb:PartyInfo>" ++ "<eb:From>" ++
    "<eb:PartyId" ++ typed L m.partyType ++ ">" ++ L.xml.escape m.fromParty ++ "</eb:PartyId>" ++
    "<eb:Role>" ++ initiator ++ "</eb:Role>" ++ "</eb:From>" ++ "<eb:To>" ++
    "<eb:PartyId" ++ typed L m.partyType ++ ">" ++ L.xml.escape m.toParty ++ "</eb:PartyId>" ++
    "<eb:Role>" ++ responder ++ "</eb:Role>" ++ "</eb:To>" ++ "</eb:PartyInfo>" ++
    "<eb:CollaborationInfo>" ++ m.agreementElement L ++
    "<eb:Service" ++ typed L m.serviceType ++ ">" ++ L.xml.escape m.service ++ "</eb:Service>" ++
    "<eb:Action>" ++ L.xml.escape m.action ++ "</eb:Action>" ++
    "<eb:ConversationId>" ++ L.xml.escape m.conversationId ++ "</eb:ConversationId>" ++
    "</eb:CollaborationInfo>" ++ m.messageProperties L ++ "<eb:PayloadInfo>" ++
    "<eb:PartInfo href=\"cid:" ++ L.xml.escape m.payloadCid ++ "\">" ++ m.partProperties L ++
    "</eb:PartInfo>" ++ "</eb:PayloadInfo>" ++ "</eb:UserMessage>"

/-- The whole envelope: the header with this message, an empty body. -/
def envelope (m : UserMessage) : String :=
  wrap (m.element L)

end UserMessage

/-! ## Reading -/

/-- `trim_start_matches("cid:")`: the text after every leading `cid:`. -/
def trimCid : List Char → List Char
  | 'c' :: 'i' :: 'd' :: ':' :: cs => trimCid cs
  | cs => cs

/-- A content id, without any leading `cid:`. -/
def withoutCid (href : String) : String :=
  String.ofList (trimCid href.toList)

/-- The name and text of each element that did not close itself and has a name. -/
def propertiesOf : List (Handle TransportError) → Result (List (String × String))
  | [] => .ok []
  | property :: rest =>
    if property.closedItself then propertiesOf rest
    else do
      match ← property.attributeOf "name" with
      | some name => do
        let value ← property.text
        let found ← propertiesOf rest
        .ok ((name, value) :: found)
      | none => propertiesOf rest

/-- Every `Property` element in the text, its `name` attribute and its text, in order. -/
def properties (within : String) : Result (List (String × String)) :=
  propertiesOf (L.xml.elements within "Property")

/-- The properties in the text, or none where there is no such text. -/
def propertiesIn (within : Option String) : Result (List (String × String)) :=
  match within with
  | some text => properties L text
  | none => .ok []

/-- The text of an element that must be there and not be empty. -/
def required (user name : String) : Result String := do
  let text ← L.xml.text user name
  okOr (text.filter (· ≠ "")) (L.protocolError ("a UserMessage with no " ++ name))

/-- The party id on one side of the message. -/
def party (user side : String) : Result String := do
  let id ← match L.xml.content user side with
    | some party => L.xml.text party "PartyId"
    | none => .ok none
  okOr id (L.protocolError ("a UserMessage with no " ++ side ++ " party"))

/-- The `type` of the sending party's id. -/
def partyTypeOf (user : String) : Result (Option String) :=
  match L.xml.content user "From" with
  | some sender => L.xml.attributeOf sender "PartyId" "type"
  | none => .ok none

/-- The User Message in the text of a `UserMessage` element. -/
def UserMessage.fromElement (user : String) : Result UserMessage := do
  let reference ← L.xml.attributeOf user "PartInfo" "href"
  let href ← okOr reference (L.protocolError "a UserMessage with no payload reference")
  let messageId ← required L user "MessageId"
  let timestamp ← L.xml.text user "Timestamp"
  let fromParty ← party L user "From"
  let toParty ← party L user "To"
  let service ← required L user "Service"
  let action ← required L user "Action"
  let conversationId ← L.xml.text user "ConversationId"
  let partyType ← partyTypeOf L user
  let serviceType ← L.xml.attributeOf user "Service" "type"
  let agreement ← L.xml.text user "AgreementRef"
  let properties ← propertiesIn L (L.xml.content user "MessageProperties")
  let payloadProperties ← propertiesIn L (L.xml.content user "PartInfo")
  .ok { messageId, timestamp := timestamp.getD "", fromParty, toParty, service, action,
        conversationId := conversationId.getD "", payloadCid := withoutCid href, partyType,
        serviceType, agreement, properties, payloadProperties }

/-- The User Message an envelope carries. -/
def UserMessage.fromEnvelope (envelope : String) : Result UserMessage := do
  let user ← okOr (L.xml.content envelope "UserMessage")
    (L.protocolError "an envelope with no UserMessage in it")
  UserMessage.fromElement L user

end As4
