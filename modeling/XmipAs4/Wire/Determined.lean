import XmipAs4.Wire.Reading

/-!
# What an envelope says, its text determines

A signature is made over an envelope's text.  That it vouches for what the envelope says
needs that no two envelopes saying different things share a text, whatever texts they were
written from: an empty one, one full of markup, or one that imitates another element.
-/

namespace As4

open Markup (Forest Elem)

/-! ## A User Message's element -/

section Shown

variable {L : Estate} (hX : L.xml.Lawful)
include hX

/-- An element that holds character data is the same in two forests of one text. -/
theorem text_unique {f g : Forest} (hf : f.wf = true) (hg : g.wf = true) {n s s' : String}
    {t t' : Markup.Tag} (hr : f.render L.xml.escape = g.render L.xml.escape)
    (h : f.find n = some ⟨t, some (.text s .nil)⟩)
    (h' : g.find n = some ⟨t', some (.text s' .nil)⟩) : s = s' := by
  have hs := text_of_find hX hf h
  rw [hr, text_of_find hX hg h'] at hs
  injection hs with hs
  injection hs with hs
  exact hs.symm

/-- Forests of one text say the same message, if any. -/
theorem UserMessage.Shows.unique {m m' : UserMessage} {f g : Forest} (h : m.Shows f)
    (h' : m'.Shows g) (hr : f.render L.xml.escape = g.render L.xml.escape) : m = m' := by
  have hwf := h.wf
  have hwf' := h'.wf
  obtain ⟨role, hsender⟩ := h.sender
  obtain ⟨role', hsender'⟩ := h'.sender
  obtain ⟨kind, responder, hreceiver⟩ := h.receiver
  obtain ⟨kind', responder', hreceiver'⟩ := h'.receiver
  obtain ⟨hfrom, text, hcontent, hkind⟩ := party_of_find hX hwf hsender (by decide) (by decide)
  obtain ⟨hfrom', text', hcontent', hkind'⟩ :=
    party_of_find hX hwf' hsender' (by decide) (by decide)
  obtain ⟨hto, -⟩ := party_of_find hX hwf hreceiver (by decide) (by decide)
  obtain ⟨hto', -⟩ := party_of_find hX hwf' hreceiver' (by decide) (by decide)
  have hmessageId := text_unique hX hwf hwf' hr h.messageId h'.messageId
  have htimestamp := text_unique hX hwf hwf' hr h.timestamp h'.timestamp
  have hservice := text_unique hX hwf hwf' hr h.service h'.service
  have haction := text_unique hX hwf hwf' hr h.action h'.action
  have hconversation := text_unique hX hwf hwf' hr h.conversationId h'.conversationId
  rw [hr, hfrom', Except.ok.injEq] at hfrom
  rw [hr, hto', Except.ok.injEq] at hto
  have hpartyType : m.partyType = m'.partyType := by
    rw [hr, hcontent', Option.some.injEq] at hcontent
    rw [← hcontent, hkind', Except.ok.injEq] at hkind
    exact hkind.symm
  have hserviceType : m.serviceType = m'.serviceType := by
    have hread := UserMessage.serviceType_of_shows hX h
    rw [hr, UserMessage.serviceType_of_shows hX h', Except.ok.injEq] at hread
    exact hread.symm
  have hagreement : m.agreement = m'.agreement := by
    have hread := UserMessage.agreement_of_shows hX h
    rw [hr, UserMessage.agreement_of_shows hX h', Except.ok.injEq] at hread
    exact hread.symm
  have hproperties : m.properties = m'.properties := by
    have hread := propertiesOf_matches (UserMessage.properties_of_shows hX h)
    rw [hr, propertiesOf_matches (UserMessage.properties_of_shows hX h'), Except.ok.injEq] at hread
    exact hread.symm
  have hpayload : m.payloadProperties = m'.payloadProperties := by
    have hread := propertiesOf_matches (UserMessage.payloadProperties_of_shows hX h)
    rw [hr, propertiesOf_matches (UserMessage.payloadProperties_of_shows hX h'),
      Except.ok.injEq] at hread
    exact hread.symm
  -- The reference is written behind `cid:` and compared as it is written, before any `cid:`
  -- of the content id's own is dropped.
  have hcid : m.payloadCid = m'.payloadCid := by
    have hread := UserMessage.href_of_shows hX h
    rw [hr, UserMessage.href_of_shows hX h', Except.ok.injEq, Option.some.injEq] at hread
    rw [← String.toList_inj, String.toList_append, String.toList_append] at hread
    exact String.toList_inj.mp (List.append_cancel_left hread).symm
  cases m
  cases m'
  simp only at *
  subst_vars
  rfl

end Shown

/-! ## Envelopes -/

/-- What one of the crate's envelopes says: everything in it that is not always the same. -/
inductive Saying where
  | message (m : UserMessage)
  | receipt (messageId clock : String) (m : UserMessage)
  | error (messageId clock : String) (refTo : Option String) (code description : String)
  deriving DecidableEq

/-- An envelope the crate writes, by what it is written from. -/
inductive Document where
  | message (m : UserMessage)
  | receipt (now : Moment) (m : UserMessage)
  | error (now : Moment) (refTo : Option String) (code description : String)

namespace Document

/-- The text of the envelope. -/
def text (L : Estate) : Document → String
  | message m => m.envelope L
  | receipt now m => Signal.receipt L now m
  | error now refTo code description => Signal.error L now refTo code description

/-- What the envelope says. -/
def saying : Document → Saying
  | message m => .message m
  | receipt now m => .receipt (nextId now) now.clock m
  | error now refTo code description => .error (nextId now) now.clock refTo code description

variable {L : Estate}

/-- The information of a signal is written from its id, its time and its reference. -/
theorem info_congr {now now' : Moment} (hid : nextId now = nextId now')
    (hclock : now.clock = now'.clock) (refTo : Option String) :
    info L now refTo = info L now' refTo := by
  unfold info
  rw [hid, hclock]

/-- Envelopes that say the same are the same text. -/
theorem text_of_saying {a b : Document} (h : a.saying = b.saying) : a.text L = b.text L := by
  cases a <;> cases b <;> simp only [saying, reduceCtorEq, Saying.message.injEq,
    Saying.receipt.injEq, Saying.error.injEq] at h
  case message.message => rw [h]
  case receipt.receipt =>
    obtain ⟨hid, hclock, rfl⟩ := h
    rw [text, text, Signal.receipt, Signal.receipt, info_congr hid hclock]
  case error.error =>
    obtain ⟨hid, hclock, rfl, rfl, rfl⟩ := h
    rw [text, text, Signal.error, Signal.error, info_congr hid hclock]

variable (hX : L.xml.Lawful)
include hX

/-- Signals of one text were made at one time under one id. -/
theorem info_unique {now now' : Moment} {refTo refTo' : Option String} {rest rest' : Forest}
    (hf : (infoForest now refTo ++ rest).wf = true)
    (hg : (infoForest now' refTo' ++ rest').wf = true)
    (hr : (infoForest now refTo ++ rest).render L.xml.escape =
      (infoForest now' refTo' ++ rest').render L.xml.escape) :
    nextId now = nextId now' ∧ now.clock = now'.clock := by
  have hid : ∀ (now : Moment) (refTo : Option String) (rest : Forest),
      (infoForest now refTo ++ rest).find "MessageId" =
        some ⟨⟨"eb", "MessageId", []⟩, some (.text (nextId now) .nil)⟩ := by
    intro now refTo rest
    rw [Forest.find_append, find_signalId]
    rfl
  have hclock : ∀ (now : Moment) (refTo : Option String) (rest : Forest),
      (infoForest now refTo ++ rest).find "Timestamp" =
        some ⟨⟨"eb", "Timestamp", []⟩, some (.text now.clock .nil)⟩ := by
    intro now refTo rest
    simp [infoForest, Forest.find_append]
  exact ⟨text_unique hX hf hg hr (hid now refTo rest) (hid now' refTo' rest'),
    text_unique hX hf hg hr (hclock now refTo rest) (hclock now' refTo' rest')⟩

/-- What stands in the signal of an envelope, where it carries one. -/
theorem content_signal : ∀ a : Document, L.xml.content (a.text L) "SignalMessage" =
    match a with
    | message _ => none
    | receipt now m => some ((receiptInner now m).render L.xml.escape)
    | error now refTo code description =>
      some ((errorInner now refTo code description).render L.xml.escape)
  | message m => Signal.content_envelope hX m
  | receipt now m => Signal.content_receipt hX now m
  | error now refTo code description => Signal.content_error hX now refTo code description

/-- No two envelopes that say different things are the same text, whatever the texts they
were written from: a User Message is never taken for a Signal nor a Receipt for an Error, and
no field of one is ever taken for another. -/
theorem text_eq_iff (a b : Document) : a.text L = b.text L ↔ a.saying = b.saying := by
  refine ⟨fun h => ?_, text_of_saying⟩
  have hsignal := content_signal hX a
  rw [h, content_signal hX b] at hsignal
  cases a <;> cases b <;> simp only [reduceCtorEq, Option.some.injEq] at hsignal
  case message.message m m' =>
    have hcontent := m.content_envelope hX
    have henv : m.envelope L = m'.envelope L := h
    rw [henv, m'.content_envelope hX, Option.some.injEq] at hcontent
    rw [saying, saying, UserMessage.Shows.unique hX m.inner_shows m'.inner_shows hcontent.symm]
  case receipt.receipt now m now' m' =>
    have hcontent := UserMessage.content_receipt hX now m
    have henv : Signal.receipt L now m = Signal.receipt L now' m' := h
    rw [henv, UserMessage.content_receipt hX, Option.some.injEq] at hcontent
    obtain ⟨hid, hclock⟩ :=
      info_unique hX (receiptInner_wf now m) (receiptInner_wf now' m') hsignal.symm
    rw [saying, saying, hid, hclock,
      UserMessage.Shows.unique hX m.inner_shows m'.inner_shows hcontent.symm]
  case error.error now refTo code description now' refTo' code' description' =>
    have hread := Signal.fromElement_error hX now refTo code description
    rw [← hsignal, Signal.fromElement_error hX, Except.ok.injEq, Signal.Error.injEq] at hread
    obtain ⟨href, hcode, hdescription⟩ := hread
    obtain ⟨hid, hclock⟩ := info_unique hX (errorInner_wf now refTo code description)
      (errorInner_wf now' refTo' code' description') hsignal.symm
    rw [saying, saying, hid, hclock, href, hcode, hdescription]
  -- A Receipt and an Error are each read as what they are, off what would be one text.
  case receipt.error now m now' refTo code description =>
    have hread := Signal.fromElement_receipt hX now m
    rw [← hsignal, Signal.fromElement_error hX] at hread
    cases hread
  case error.receipt now refTo code description now' m =>
    have hread := Signal.fromElement_error hX now refTo code description
    rw [← hsignal, Signal.fromElement_receipt hX] at hread
    cases hread

end Document

end As4
