import XmipAs4.Wire.Forests

/-!
# The envelopes are the forests' text

`element`, `wrap`, `receipt` and `error` format text piece by piece.  Each is shown to
be the rendering of its forest under the escaping of the scanner that reads it.  Only
two things are asked of that escaping: that it goes piece by piece, which the reference
`cid:…` needs, and that it leaves text without markup as it is, which the fixed texts
(roles, namespaces, the clock) need.
-/

namespace As4

open Markup (Forest Tag attrText isPlain)

/-! ## One element -/

/-- The text of an element without attributes, by its two tags. -/
theorem render_bare (esc : String → String) (name o c : String) (inner : Forest)
    (ho : "<" ++ ("eb" ++ ":" ++ name) ++ ">" = o)
    (hc : "</" ++ ("eb" ++ ":" ++ name) ++ ">" = c) :
    (node name [] inner).render esc = o ++ (inner.render esc ++ c) := by
  rw [render_node, attrText, String.append_empty, ho, ← hc]
  simp only [String.append_assoc]

/-- The text of an element with attributes, by how its tags begin and end. -/
theorem render_attributed (esc : String → String) (name o c : String)
    (attrs : List (String × String)) (inner : Forest) (ho : "<" ++ ("eb" ++ ":" ++ name) = o)
    (hc : "</" ++ ("eb" ++ ":" ++ name) ++ ">" = c) :
    (node name attrs inner).render esc =
      o ++ (attrText esc attrs ++ (">" ++ (inner.render esc ++ c))) := by
  rw [render_node, ho, ← hc]
  simp only [String.append_assoc]

/-- The text of character data and nothing else. -/
theorem render_data (esc : String → String) (s : String) :
    (Forest.text s .nil).render esc = esc s := by
  rw [Forest.render, Forest.render, String.append_empty]

/-- The text of an element of character data without attributes. -/
theorem render_bare_leaf (esc : String → String) (name o c s : String)
    (ho : "<" ++ ("eb" ++ ":" ++ name) ++ ">" = o)
    (hc : "</" ++ ("eb" ++ ":" ++ name) ++ ">" = c) :
    (leaf name [] s).render esc = o ++ (esc s ++ c) := by
  rw [leaf, render_bare esc name o c _ ho hc, render_data]

variable {L : Estate}

/-- The attribute of a type as it is written. -/
theorem attrText_typeAttr (kind : Option String) :
    attrText L.xml.escape (typeAttr kind) = typed L kind := by
  cases kind with
  | none => rfl
  | some kind =>
    have hlit : " type=\"" = " " ++ "type" ++ "=\"" := rfl
    rw [typeAttr, attrText, attrText, typed, String.append_empty, hlit]

/-- The text of an element of character data that carries a type. -/
theorem render_typed_leaf (name o c : String) (kind : Option String) (s : String)
    (ho : "<" ++ ("eb" ++ ":" ++ name) = o) (hc : "</" ++ ("eb" ++ ":" ++ name) ++ ">" = c) :
    (leaf name (typeAttr kind) s).render L.xml.escape =
      o ++ (typed L kind ++ (">" ++ (L.xml.escape s ++ c))) := by
  rw [leaf, render_attributed L.xml.escape name o c _ _ ho hc, render_data, attrText_typeAttr]

/-! ## Properties -/

/-- The text of one property. -/
theorem render_property (esc : String → String) (p : String × String) :
    (leaf "Property" [("name", p.1)] p.2).render esc =
      "<eb:Property name=\"" ++ esc p.1 ++ "\">" ++ esc p.2 ++ "</eb:Property>" := by
  have hlit : "<eb:Property name=\"" = "<eb:Property" ++ (" " ++ ("name" ++ "=\"")) := rfl
  have hend : "\">" = "\"" ++ ">" := rfl
  rw [leaf, render_attributed esc "Property" "<eb:Property" "</eb:Property>" _ _ rfl rfl,
    render_data, attrText, attrText, hlit, hend]
  simp only [String.append_assoc, String.append_empty]

/-- The fold over properties writes them after what it began with. -/
theorem foldl_properties (ps : List (String × String)) (out : String) :
    ps.foldl (fun out p =>
      out ++ ("<eb:Property name=\"" ++ L.xml.escape p.1 ++ "\">" ++ L.xml.escape p.2 ++
        "</eb:Property>")) out = out ++ (propertyForest ps).render L.xml.escape := by
  induction ps generalizing out with
  | nil => simp [propertyForest, Forest.render]
  | cons p ps ih =>
    rw [List.foldl_cons, ih, propertyForest, Forest.render_append, render_property,
      String.append_assoc]

/-- The text of properties is what the fold over them writes. -/
theorem propertyElements_eq (ps : List (String × String)) :
    propertyElements L ps = (propertyForest ps).render L.xml.escape := by
  rw [propertyElements, foldl_properties, String.empty_append]

/-- The text of a group of properties, by its two tags. -/
theorem render_group (name o c : String) (ps : List (String × String))
    (ho : "<" ++ ("eb" ++ ":" ++ name) ++ ">" = o)
    (hc : "</" ++ ("eb" ++ ":" ++ name) ++ ">" = c) :
    (groupForest name ps).render L.xml.escape =
      if ps.isEmpty then "" else o ++ propertyElements L ps ++ c := by
  unfold groupForest
  split_ifs
  · rfl
  · rw [render_bare L.xml.escape name o c _ ho hc, propertyElements_eq, String.append_assoc]

/-! ## The User Message -/

/-- The text of the agreement's element. -/
theorem agreementElement_eq (m : UserMessage) :
    m.agreementElement L = (agreementForest m.agreement).render L.xml.escape := by
  unfold UserMessage.agreementElement agreementForest
  cases m.agreement with
  | none => rfl
  | some a =>
    simp only
    rw [render_bare_leaf L.xml.escape "AgreementRef" "<eb:AgreementRef>" "</eb:AgreementRef>" _
      rfl rfl, String.append_assoc]

/-- The text of the payload's reference and what stands in it. -/
theorem render_partInfo (hX : L.xml.Lawful) (cid : String) (inner : Forest) :
    (node "PartInfo" [("href", "cid:" ++ cid)] inner).render L.xml.escape =
      "<eb:PartInfo href=\"cid:" ++ (L.xml.escape cid ++ ("\">" ++
        (inner.render L.xml.escape ++ "</eb:PartInfo>"))) := by
  have hcid : isPlain "cid:" = true := by decide
  have hlit : "<eb:PartInfo href=\"cid:" =
      "<eb:PartInfo" ++ (" " ++ ("href" ++ ("=\"" ++ "cid:"))) := rfl
  have hend : "\">" = "\"" ++ ">" := rfl
  rw [render_attributed L.xml.escape "PartInfo" "<eb:PartInfo" "</eb:PartInfo>" _ _ rfl rfl,
    attrText, attrText, hX.escape_plain_append hcid, hlit, hend]
  simp only [String.append_assoc, String.append_empty]

/-- The text of a side of the message. -/
theorem render_side (hX : L.xml.Lawful) (side o c : String) (kind : Option String)
    (id : String) {role : String} (hrole : isPlain role = true)
    (ho : "<" ++ ("eb" ++ ":" ++ side) ++ ">" = o)
    (hc : "</" ++ ("eb" ++ ":" ++ side) ++ ">" = c) :
    (sideForest side kind id role).render L.xml.escape =
      o ++ ("<eb:PartyId" ++ (typed L kind ++ (">" ++ (L.xml.escape id ++ ("</eb:PartyId>" ++
        ("<eb:Role>" ++ (role ++ ("</eb:Role>" ++ c)))))))) := by
  rw [sideForest, render_bare L.xml.escape side o c _ ho hc, Forest.render_append,
    render_typed_leaf "PartyId" "<eb:PartyId" "</eb:PartyId>" _ _ rfl rfl,
    render_bare_leaf L.xml.escape "Role" "<eb:Role>" "</eb:Role>" _ rfl rfl,
    hX.escape_plain role hrole]
  simp only [String.append_assoc]

namespace UserMessage

variable (hX : L.xml.Lawful) (m : UserMessage)
include hX

/-- The text of who sends and who is sent to. -/
theorem render_partyInfo :
    (node "PartyInfo" [] (sideForest "From" m.partyType m.fromParty initiator ++
      sideForest "To" m.partyType m.toParty responder)).render L.xml.escape =
    "<eb:PartyInfo>" ++ "<eb:From>" ++
      "<eb:PartyId" ++ typed L m.partyType ++ ">" ++ L.xml.escape m.fromParty ++ "</eb:PartyId>" ++
      "<eb:Role>" ++ initiator ++ "</eb:Role>" ++ "</eb:From>" ++ "<eb:To>" ++
      "<eb:PartyId" ++ typed L m.partyType ++ ">" ++ L.xml.escape m.toParty ++ "</eb:PartyId>" ++
      "<eb:Role>" ++ responder ++ "</eb:Role>" ++ "</eb:To>" ++ "</eb:PartyInfo>" := by
  have hinit : isPlain initiator = true := by decide +kernel
  have hresp : isPlain responder = true := by decide +kernel
  rw [render_bare L.xml.escape "PartyInfo" "<eb:PartyInfo>" "</eb:PartyInfo>" _ rfl rfl,
    Forest.render_append, render_side hX "From" "<eb:From>" "</eb:From>" _ _ hinit rfl rfl,
    render_side hX "To" "<eb:To>" "</eb:To>" _ _ hresp rfl rfl]
  simp only [String.append_assoc]

omit hX in
/-- The text of what the message is about. -/
theorem render_collaborationInfo :
    (node "CollaborationInfo" [] (agreementForest m.agreement ++
      (leaf "Service" (typeAttr m.serviceType) m.service ++
        (leaf "Action" [] m.action ++ leaf "ConversationId" [] m.conversationId)))).render
      L.xml.escape =
    "<eb:CollaborationInfo>" ++ m.agreementElement L ++
      "<eb:Service" ++ typed L m.serviceType ++ ">" ++ L.xml.escape m.service ++ "</eb:Service>" ++
      "<eb:Action>" ++ L.xml.escape m.action ++ "</eb:Action>" ++
      "<eb:ConversationId>" ++ L.xml.escape m.conversationId ++ "</eb:ConversationId>" ++
      "</eb:CollaborationInfo>" := by
  rw [render_bare L.xml.escape "CollaborationInfo" "<eb:CollaborationInfo>"
      "</eb:CollaborationInfo>" _ rfl rfl, Forest.render_append, Forest.render_append,
    Forest.render_append, agreementElement_eq,
    render_typed_leaf "Service" "<eb:Service" "</eb:Service>" _ _ rfl rfl,
    render_bare_leaf L.xml.escape "Action" "<eb:Action>" "</eb:Action>" _ rfl rfl,
    render_bare_leaf L.xml.escape "ConversationId" "<eb:ConversationId>" "</eb:ConversationId>" _
      rfl rfl]
  simp only [String.append_assoc]

/-- The text of the payload's reference and its properties. -/
theorem render_payloadInfo :
    (node "PayloadInfo" [] (node "PartInfo" [("href", "cid:" ++ m.payloadCid)]
      (groupForest "PartProperties" m.payloadProperties))).render L.xml.escape =
    "<eb:PayloadInfo>" ++ "<eb:PartInfo href=\"cid:" ++ L.xml.escape m.payloadCid ++ "\">" ++
      m.partProperties L ++ "</eb:PartInfo>" ++ "</eb:PayloadInfo>" := by
  rw [render_bare L.xml.escape "PayloadInfo" "<eb:PayloadInfo>" "</eb:PayloadInfo>" _ rfl rfl,
    render_partInfo hX,
    render_group "PartProperties" "<eb:PartProperties>" "</eb:PartProperties>" _ rfl rfl,
    ← partProperties]
  simp only [String.append_assoc]

/-- The `eb:UserMessage` element is the text of its forest. -/
theorem element_eq : m.element L = m.forest.render L.xml.escape := by
  rw [forest, render_bare L.xml.escape "UserMessage" "<eb:UserMessage>" "</eb:UserMessage>" _ rfl
      rfl, inner, Forest.render_append, Forest.render_append, Forest.render_append,
    Forest.render_append, render_partyInfo hX, render_collaborationInfo, render_payloadInfo hX,
    render_group "MessageProperties" "<eb:MessageProperties>" "</eb:MessageProperties>" _ rfl rfl,
    render_bare L.xml.escape "MessageInfo" "<eb:MessageInfo>" "</eb:MessageInfo>" _ rfl rfl,
    Forest.render_append,
    render_bare_leaf L.xml.escape "Timestamp" "<eb:Timestamp>" "</eb:Timestamp>" _ rfl rfl,
    render_bare_leaf L.xml.escape "MessageId" "<eb:MessageId>" "</eb:MessageId>" _ rfl rfl,
    ← messageProperties]
  unfold element
  simp only [String.append_assoc]

end UserMessage

/-! ## Signals -/

/-- The text of a signal's reference. -/
theorem reference_eq (refTo : Option String) :
    reference L refTo = (referenceForest refTo).render L.xml.escape := by
  unfold reference referenceForest
  cases refTo with
  | none => rfl
  | some id =>
    simp only
    rw [render_bare_leaf L.xml.escape "RefToMessageId" "<eb:RefToMessageId>"
      "</eb:RefToMessageId>" _ rfl rfl, String.append_assoc]

/-- The text of a signal's information; the clock is written unescaped, and is plain. -/
theorem info_eq (hX : L.xml.Lawful) (now : Moment) (refTo : Option String) :
    info L now refTo = (infoForest now refTo).render L.xml.escape := by
  rw [infoForest, render_bare L.xml.escape "MessageInfo" "<eb:MessageInfo>" "</eb:MessageInfo>" _
      rfl rfl, Forest.render_append, Forest.render_append,
    render_bare_leaf L.xml.escape "Timestamp" "<eb:Timestamp>" "</eb:Timestamp>" _ rfl rfl,
    render_bare_leaf L.xml.escape "MessageId" "<eb:MessageId>" "</eb:MessageId>" _ rfl rfl,
    hX.escape_plain now.clock now.clock_plain, ← reference_eq]
  unfold info
  simp only [String.append_assoc]

/-- The text of an Error's element. -/
theorem render_errorNode (hX : L.xml.Lawful) (code description : String) :
    (node "Error" [("category", "Content"), ("errorCode", code), ("origin", "ebMS"),
      ("severity", "failure")] (leaf "Description" [("xml:lang", "en")] description)).render
      L.xml.escape =
    "<eb:Error category=\"Content\" errorCode=\"" ++ L.xml.escape code ++
      "\" origin=\"ebMS\" severity=\"failure\">" ++ "<eb:Description xml:lang=\"en\">" ++
      L.xml.escape description ++ "</eb:Description>" ++ "</eb:Error>" := by
  have hplain : ∀ s ∈ ["Content", "ebMS", "failure", "en"], L.xml.escape s = s := by
    intro s hs
    have hall : ∀ s ∈ ["Content", "ebMS", "failure", "en"], isPlain s = true := by decide
    exact hX.escape_plain s (hall s hs)
  have hopen : "<eb:Error category=\"Content\" errorCode=\"" = "<eb:Error" ++ (" " ++ ("category" ++
      ("=\"" ++ ("Content" ++ ("\"" ++ (" " ++ ("errorCode" ++ "=\""))))))) := rfl
  have hmid : "\" origin=\"ebMS\" severity=\"failure\">" = "\"" ++ (" " ++ ("origin" ++ ("=\"" ++
      ("ebMS" ++ ("\"" ++ (" " ++ ("severity" ++ ("=\"" ++ ("failure" ++ ("\"" ++ ">"))))))))))
      := rfl
  have hdesc : "<eb:Description xml:lang=\"en\">" = "<eb:Description" ++ (" " ++ ("xml:lang" ++
      ("=\"" ++ ("en" ++ ("\"" ++ ">"))))) := rfl
  rw [render_attributed L.xml.escape "Error" "<eb:Error" "</eb:Error>" _ _ rfl rfl, leaf,
    render_attributed L.xml.escape "Description" "<eb:Description" "</eb:Description>" _ _ rfl rfl,
    render_data, hopen, hmid, hdesc]
  simp only [attrText]
  rw [hplain "Content" (by decide), hplain "ebMS" (by decide), hplain "failure" (by decide),
    hplain "en" (by decide)]
  simp only [String.append_assoc, String.append_empty]

/-! ## Envelopes -/

/-- A SOAP envelope around the text of a forest is the text of an envelope around it. -/
theorem wrap_eq (hX : L.xml.Lawful) (f : Forest) :
    wrap (f.render L.xml.escape) = (wrapForest f).render L.xml.escape := by
  have hplain : ∀ s ∈ [soapNamespace, ebms, "true"], L.xml.escape s = s := by
    intro s hs
    have hall : ∀ s ∈ [soapNamespace, ebms, "true"], isPlain s = true := by decide +kernel
    exact hX.escape_plain s (hall s hs)
  have hdecl : "<?xml version=\"1.0\" encoding=\"UTF-8\"?>" =
      "<?" ++ ("xml version=\"1.0\" encoding=\"UTF-8\"" ++ "?>") := rfl
  have henv : "<S12:Envelope xmlns:S12=\"" = "<" ++ (Tag.label ⟨"S12", "Envelope", []⟩ ++
      (" " ++ ("xmlns:S12" ++ "=\""))) := rfl
  have heb : "\" xmlns:eb=\"" = "\"" ++ (" " ++ ("xmlns:eb" ++ "=\"")) := rfl
  have hhead : "<S12:Header>" = "<" ++ (Tag.label ⟨"S12", "Header", []⟩ ++ ">") := rfl
  have hmsg : "<eb:Messaging S12:mustUnderstand=\"true\">" = "<" ++
      (Tag.label ⟨"eb", "Messaging", []⟩ ++ (" " ++ ("S12:mustUnderstand" ++ ("=\"" ++ ("true" ++
        ("\"" ++ ">")))))) := rfl
  have hmsg' : "</eb:Messaging>" = "</" ++ (Tag.label ⟨"eb", "Messaging", []⟩ ++ ">") := rfl
  have hhead' : "</S12:Header>" = "</" ++ (Tag.label ⟨"S12", "Header", []⟩ ++ ">") := rfl
  have hbody : "<S12:Body/>" = "<" ++ (Tag.label ⟨"S12", "Body", []⟩ ++ "/>") := rfl
  have henv' : "</S12:Envelope>" = "</" ++ (Tag.label ⟨"S12", "Envelope", []⟩ ++ ">") := rfl
  have hend : "\">" = "\"" ++ ">" := rfl
  have hlabel : ∀ space name attrs,
      Tag.label ⟨space, name, attrs⟩ = Tag.label ⟨space, name, []⟩ := fun _ _ _ => rfl
  simp only [wrapForest, Forest.render, attrText]
  rw [hplain soapNamespace (by decide), hplain ebms (by decide), hplain "true" (by decide),
    hlabel "S12" "Envelope", hlabel "eb" "Messaging"]
  unfold wrap
  rw [hdecl, henv, heb, hhead, hmsg, hmsg', hhead', hbody, henv', hend]
  simp only [String.append_assoc, String.append_empty]

/-- The envelope of a User Message is the text of an envelope around its forest. -/
theorem UserMessage.envelope_eq (hX : L.xml.Lawful) (m : UserMessage) :
    m.envelope L = (wrapForest m.forest).render L.xml.escape := by
  rw [envelope, m.element_eq hX, wrap_eq hX]

/-- The envelope of a Receipt is the text of an envelope around its forest. -/
theorem Signal.receipt_eq (hX : L.xml.Lawful) (now : Moment) (m : UserMessage) :
    Signal.receipt L now m =
      (wrapForest (node "SignalMessage" [] (receiptInner now m))).render L.xml.escape := by
  rw [Signal.receipt, ← wrap_eq hX, render_bare L.xml.escape "SignalMessage" "<eb:SignalMessage>"
    "</eb:SignalMessage>" _ rfl rfl, receiptInner, Forest.render_append, ← info_eq hX,
    render_bare L.xml.escape "Receipt" "<eb:Receipt>" "</eb:Receipt>" _ rfl rfl, m.element_eq hX]
  simp only [String.append_assoc]

/-- The envelope of an Error is the text of an envelope around its forest. -/
theorem Signal.error_eq (hX : L.xml.Lawful) (now : Moment) (refTo : Option String)
    (code description : String) :
    Signal.error L now refTo code description =
      (wrapForest (node "SignalMessage" [] (errorInner now refTo code description))).render
        L.xml.escape := by
  rw [Signal.error, ← wrap_eq hX, render_bare L.xml.escape "SignalMessage" "<eb:SignalMessage>"
    "</eb:SignalMessage>" _ rfl rfl, errorInner, Forest.render_append, ← info_eq hX,
    render_errorNode hX]
  simp only [String.append_assoc]

end As4
