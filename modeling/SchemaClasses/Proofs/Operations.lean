import SchemaClasses.Document.Channel
import SchemaClasses.Proofs.Acceptance

/-!
# Operations with several messages

An operation may choose from several messages.  It is read one message at a time: each of them
contributes names of messages and of payloads, perhaps none, and the operation has all of them in
order.  So an operation with several messages says what the operations with one of them say
(`exists_operation_of_oneOf`), and a reference says what the message says that it refers to, under
the name of the reference (`operation_of_refersTo`).

The one thing that a message says and its reference does not is the name that it gives itself.  It
is not looked at where the message is referred to, so it does no harm there if it cannot be shown.
-/

namespace SchemaClasses

/-- The operation with a message name in place of those that it has. -/
def Operation.called (name : String) (o : Operation) : Operation := { o with messages := [name] }

namespace Document

variable {doc : Document} {op body m : Mapping} {c : Value} {cs : List Value} {ring : Option Nat}
  {r : Option Operation}

/-! ## What one message contributes -/

/-- A message that is no choice itself. -/
def IsSingle (c : Value) : Prop :=
  ∃ m ring, c = .mapping m ring ∧ Mapping.field? m "oneOf" = none

/-- A message that refers to another one by its name. -/
def RefersTo (c : Value) (name : String) : Prop :=
  ∃ m ring, c = .mapping m ring ∧ Mapping.field? m "oneOf" = none ∧
    Mapping.field? m "$ref" = some (.text (Reference.messageRoot ++ name))

lemma RefersTo.isSingle {name : String} (h : RefersTo c name) : IsSingle c := by
  obtain ⟨m, ring, hc, hone, -⟩ := h
  exact ⟨m, ring, hc, hone⟩

/-- A message of this name is among the declared ones, and it is neither a reference nor a
choice. -/
def DeclaresMessage (doc : Document) (name : String) (body : Mapping) : Prop :=
  (∃ declared ring, doc.section? ["components", "messages"] = .ok declared ∧
    Mapping.field? declared name = some (.mapping body ring)) ∧
  Mapping.field? body "$ref" = none ∧ Mapping.field? body "oneOf" = none

/-- The only alternative of a message that is no choice contributes what the message does. -/
lemma alternatives_of_isSingle (doc : Document) (h : IsSingle c) :
    ∃ c', alternatives c = .ok [c'] ∧ doc.contribution c' = doc.contribution c := by
  obtain ⟨m, ring, rfl, hone⟩ := h
  cases m with
  | nil => exact ⟨.mapping [], rfl, rfl⟩
  | cons entry rest => exact ⟨_, by simp [alternatives, Value.truthy, hone], rfl⟩

lemma alternatives_of_oneOf (h : Mapping.field? m "oneOf" = some (.list cs ring))
    (ring' : Option Nat) : alternatives (.mapping m ring') = .ok cs := by
  cases m with
  | nil => cases h
  | cons entry rest => simp [alternatives, Value.truthy, h]

/-- A reference contributes its name and the payload of the message that it refers to. -/
lemma contribution_of_refersTo {name : String} (hc : RefersTo c name)
    (hbody : doc.DeclaresMessage name body) : doc.contribution c =
      (payloadNames (Mapping.field body "payload")).map (Contribution.mk [name]) := by
  obtain ⟨m, ring, rfl, -, href⟩ := hc
  obtain ⟨⟨declared, ring', hdeclared, hfield⟩, -⟩ := hbody
  have hbelow :
      Reference.nameBelow Reference.messageRoot (Reference.messageRoot ++ name) = name := by
    rw [Reference.nameBelow, Reference.below?_eq_some.2 rfl, Option.getD_some]
  simp only [contribution, asMapping, href, referencedName, hbelow, hdeclared, hfield,
    Option.getD_some, bind, Except.bind]
  cases payloadNames (Mapping.field body "payload") <;> rfl

/-- A message whose name can be shown contributes that name, if there is one. -/
lemma contribution_of_body (href : Mapping.field? body "$ref" = none)
    (hname : (Mapping.field body "name").limit? = none) (ring : Option Nat) :
    doc.contribution (.mapping body ring) =
      (payloadNames (Mapping.field body "payload")).map (Contribution.mk
        (if (Mapping.field body "name").truthy then [(Mapping.field body "name").display]
          else [])) := by
  have hshown : (Mapping.field body "name").shown = .ok (Mapping.field body "name").display :=
    Value.shown_eq_ok.2 ⟨hname, rfl⟩
  simp only [contribution, asMapping, href, hshown, bind, Except.bind]
  split <;> cases payloadNames (Mapping.field body "payload") <;> rfl

/-! ## Operations with one message -/

/-- The operation with another message. -/
def withMessage (op : Mapping) (c : Value) (ring : Option Nat) : Value :=
  .mapping (Entries.insert op (.text "message") c) ring

/-- An operation is made of its labels and of what its messages contribute. -/
lemma operation_eq (doc : Document) (op : Mapping) (ring : Option Nat) :
    doc.operation (.mapping op ring) = do
      let parts ← alternatives (Mapping.field op "message") >>= traverse doc.contribution
      let operationId ← Mapping.fieldText op "operationId"
      let summary ← Mapping.fieldText op "summary"
      return some
        ⟨operationId, summary, parts.flatMap (·.messages), parts.flatMap (·.payloads)⟩ := by
  rw [operation, bind_assoc]
  rfl

/-- **An operation with one message has what the message contributes.** -/
lemma operation_withMessage (hc : IsSingle c) (op : Mapping) (ring : Option Nat) :
    doc.operation (withMessage op c ring) = do
      let part ← doc.contribution c
      let operationId ← Mapping.fieldText op "operationId"
      let summary ← Mapping.fieldText op "summary"
      return some ⟨operationId, summary, part.messages, part.payloads⟩ := by
  obtain ⟨c', halternatives, hcontribution⟩ := alternatives_of_isSingle doc hc
  have hmessage : Mapping.field (Entries.insert op (.text "message") c) "message" = c :=
    Mapping.field_of_field? (Mapping.field?_insert_self op "message" c)
  have hother : ∀ name ≠ "message", Mapping.fieldText (Entries.insert op (.text "message") c) name =
      Mapping.fieldText op name := fun name hname => by
    rw [Mapping.fieldText, Mapping.fieldText, Mapping.field?_insert_of_ne hname]
  rw [withMessage, operation_eq, hmessage, halternatives, hother "operationId" (by decide),
    hother "summary" (by decide)]
  change ((traverse doc.contribution [c']) >>= _) = _
  rw [traverse, hcontribution]
  cases doc.contribution c with
  | error e => rfl
  | ok part => simp [bind, Except.bind, traverse]

/-- An operation with one message does not fail exactly if neither the message nor a label does. -/
lemma operation_withMessage_eq_ok (hc : IsSingle c) :
    doc.operation (withMessage op c ring) = .ok r ↔ ∃ part operationId summary,
      doc.contribution c = .ok part ∧ Mapping.fieldText op "operationId" = .ok operationId ∧
      Mapping.fieldText op "summary" = .ok summary ∧
      r = some ⟨operationId, summary, part.messages, part.payloads⟩ := by
  rw [operation_withMessage hc]
  simp only [bind_eq_ok, pure, Except.pure, Except.ok.injEq]
  constructor
  · rintro ⟨part, hpart, operationId, hid, summary, hsummary, rfl⟩
    exact ⟨part, operationId, summary, hpart, hid, hsummary, rfl⟩
  · rintro ⟨part, operationId, summary, hpart, hid, hsummary, rfl⟩
    exact ⟨part, hpart, operationId, hid, summary, hsummary, rfl⟩

/-! ## Operations with several messages -/

/-- **An operation with several messages has those of the operations with one of them**, in order,
and the same labels.  Where there are no messages to choose from, nothing is known of the labels, so
they have to be asked for. -/
lemma exists_operation_of_oneOf {ring' ring'' : Option Nat}
    (hmessage : Mapping.field? op "message" = some (.mapping m ring'))
    (hone : Mapping.field? m "oneOf" = some (.list cs ring'')) (hcs : ∀ c ∈ cs, IsSingle c)
    (hsingles : ∀ c ∈ cs, ∃ r, doc.operation (withMessage op c ring) = .ok r)
    (hempty : cs = [] → ∃ r, doc.operation (withMessage op (.mapping []) ring) = .ok r) :
    ∃ singles whole,
      List.Forall₂ (fun c s => doc.operation (withMessage op c ring) = .ok (some s)) cs singles ∧
      doc.operation (.mapping op ring) = .ok (some whole) ∧
      whole.messages = singles.flatMap (·.messages) ∧
      whole.payloads = singles.flatMap (·.payloads) ∧
      ∀ s ∈ singles, s.operationId = whole.operationId ∧ s.summary = whole.summary := by
  have hlabels : ∃ operationId summary, Mapping.fieldText op "operationId" = .ok operationId ∧
      Mapping.fieldText op "summary" = .ok summary := by
    obtain ⟨c, hc, r, hr⟩ :
        ∃ c, IsSingle c ∧ ∃ r, doc.operation (withMessage op c ring) = .ok r := by
      cases cs with
      | nil => exact ⟨.mapping [], ⟨[], none, rfl, rfl⟩, hempty rfl⟩
      | cons c rest => exact ⟨c, hcs c List.mem_cons_self, hsingles c List.mem_cons_self⟩
    obtain ⟨-, operationId, summary, -, hid, hsummary, -⟩ := (operation_withMessage_eq_ok hc).1 hr
    exact ⟨operationId, summary, hid, hsummary⟩
  obtain ⟨operationId, summary, hid, hsummary⟩ := hlabels
  have hreads : ∀ c ∈ cs, ∃ s : Operation,
      (doc.operation (withMessage op c ring) = .ok (some s) ∧
        doc.contribution c = .ok ⟨s.messages, s.payloads⟩) ∧
      s.operationId = operationId ∧ s.summary = summary := by
    intro c hc
    obtain ⟨r, hr⟩ := hsingles c hc
    obtain ⟨part, -, -, hpart, -⟩ := (operation_withMessage_eq_ok (hcs c hc)).1 hr
    exact ⟨⟨operationId, summary, part.messages, part.payloads⟩,
      ⟨(operation_withMessage_eq_ok (hcs c hc)).2 ⟨part, _, _, hpart, hid, hsummary, rfl⟩, hpart⟩,
      rfl, rfl⟩
  obtain ⟨singles, hall⟩ := exists_forall₂_iff.2 hreads
  obtain ⟨hread, hsame⟩ := forall₂_and_right.1 hall
  have hparts : traverse doc.contribution cs =
      .ok (singles.map fun s => ⟨s.messages, s.payloads⟩) := by
    rw [traverse_eq_ok_iff, List.forall₂_map_right_iff]
    exact hread.imp fun c s h => h.2
  refine ⟨singles, ⟨operationId, summary, singles.flatMap (·.messages),
    singles.flatMap (·.payloads)⟩, hread.imp fun c s h => h.1, ?_, rfl, rfl, hsame⟩
  rw [operation_eq, Mapping.field_of_field? hmessage, alternatives_of_oneOf hone, hid, hsummary]
  change ((traverse doc.contribution cs) >>= _) = _
  rw [hparts]
  simp [bind, Except.bind, pure, Except.pure, List.flatMap_map]

/-! ## References to messages -/

/-- **A reference says what the message says that it refers to**, under the name of the reference.
This includes the failures.  The message may have another name, as long as that can be shown. -/
lemma operation_of_refersTo {name : String} {inline : Mapping} (hc : RefersTo c name)
    (hbody : doc.DeclaresMessage name body)
    (hpayload : Mapping.field inline "payload" = Mapping.field body "payload")
    (href : Mapping.field? inline "$ref" = none) (hone : Mapping.field? inline "oneOf" = none)
    (hname : (Mapping.field inline "name").limit? = none) (op : Mapping) (ring ring' : Option Nat) :
    doc.operation (withMessage op c ring) =
      (doc.operation (withMessage op (.mapping inline ring') ring)).map
        (Option.map (Operation.called name)) := by
  rw [operation_withMessage hc.isSingle, operation_withMessage ⟨inline, ring', rfl, hone⟩,
    contribution_of_refersTo hc hbody, contribution_of_body href hname, hpayload]
  cases payloadNames (Mapping.field body "payload") with
  | error e => rfl
  | ok payloads =>
      cases Mapping.fieldText op "operationId" with
      | error e => rfl
      | ok operationId => cases Mapping.fieldText op "summary" <;> rfl

/-- **Operations are read one message at a time.**  If none of the operations with one of the
messages fails, and in a choice from no messages the labels do not, then the operation with all of
them has theirs in order.  A reference says what the message says that it refers to: if the name of
the message can be shown, as much as the message itself, and in any case as much as the message
without its name. -/
theorem operation_compositional (doc : Document) (op : Mapping) (ring : Option Nat) :
    (∀ m cs ring' ring'', Mapping.field? op "message" = some (.mapping m ring') →
      Mapping.field? m "oneOf" = some (.list cs ring'') → (∀ c ∈ cs, IsSingle c) →
      (∀ c ∈ cs, ∃ r, doc.operation (withMessage op c ring) = .ok r) →
      (cs = [] → ∃ r, doc.operation (withMessage op (.mapping []) ring) = .ok r) →
      ∃ singles whole,
        List.Forall₂ (fun c s => doc.operation (withMessage op c ring) = .ok (some s)) cs singles ∧
        doc.operation (.mapping op ring) = .ok (some whole) ∧
        whole.messages = singles.flatMap (·.messages) ∧
        whole.payloads = singles.flatMap (·.payloads) ∧
        ∀ s ∈ singles, s.operationId = whole.operationId ∧ s.summary = whole.summary) ∧
    ∀ c name body ring', RefersTo c name → doc.DeclaresMessage name body →
      ((Mapping.field body "name").limit? = none → doc.operation (withMessage op c ring) =
        (doc.operation (withMessage op (.mapping body ring') ring)).map
          (Option.map (Operation.called name))) ∧
      doc.operation (withMessage op c ring) =
        (doc.operation (withMessage op (.mapping (Entries.erase body (.text "name")) ring')
          ring)).map (Option.map (Operation.called name)) := by
  refine ⟨fun m cs ring' ring'' => exists_operation_of_oneOf, fun c name body ring' hc hbody => ?_⟩
  have hother : ∀ key ≠ "name", Mapping.field? (Entries.erase body (.text "name")) key =
      Mapping.field? body key := fun key => Mapping.field?_erase_of_ne
  refine ⟨fun hname => ?_, ?_⟩
  · exact operation_of_refersTo hc hbody rfl hbody.2.1 hbody.2.2 hname op ring ring'
  · refine operation_of_refersTo hc hbody ?_ ?_ ?_ ?_ op ring ring'
    · rw [Mapping.field, hother "payload" (by decide), Mapping.field]
    · rw [hother "$ref" (by decide), hbody.2.1]
    · rw [hother "oneOf" (by decide), hbody.2.2]
    · rw [Mapping.field, Mapping.field?_erase_self]
      rfl

/-! ## A choice of two messages -/

/-- A document with one declared message. -/
def withCat : Document where
  entries := [(.text "components", .mapping [(.text "messages", .mapping [
    (.text "Cat", .mapping [(.text "name", .text "cat"),
      (.text "payload", .mapping [(.text "$ref", .text "#/components/schemas/Animal")])])])])]

/-- A reference to the declared message, and a message that stands for itself. -/
def pets : List Value := [
  .mapping [(.text "$ref", .text "#/components/messages/Cat")],
  .mapping [(.text "name", .text "dog")]]

/-- An operation that chooses from the two. -/
def adoption : Mapping := [
  (.text "operationId", .text "onAdoption"),
  (.text "message", .mapping [(.text "oneOf", .list pets)])]

/-- The operation has the messages and payloads of both, of which there are more and fewer, and the
reference is as good as the message. -/
theorem operation_of_adoption :
    (∃ singles whole,
      List.Forall₂ (fun c s => withCat.operation (withMessage adoption c none) = .ok (some s)) pets
        singles ∧
      withCat.operation (.mapping adoption) = .ok (some whole) ∧
      singles.flatMap (·.messages) = ["Cat", "dog"] ∧
      singles.flatMap (·.payloads) = ["Animal"]) ∧
    ∃ c ∈ pets, ∃ body, RefersTo c "Cat" ∧ withCat.DeclaresMessage "Cat" body ∧
      withCat.operation (withMessage adoption c none) =
        (withCat.operation (withMessage adoption (.mapping body) none)).map
          (Option.map (Operation.called "Cat")) := by
  obtain ⟨hchoice, hreference⟩ := operation_compositional withCat adoption none
  have hc : RefersTo (.mapping [(.text "$ref", .text "#/components/messages/Cat")]) "Cat" :=
    ⟨_, _, rfl, rfl, rfl⟩
  have hbody : withCat.DeclaresMessage "Cat" [(.text "name", .text "cat"),
      (.text "payload", .mapping [(.text "$ref", .text "#/components/schemas/Animal")])] :=
    ⟨⟨_, _, rfl, rfl⟩, rfl, rfl⟩
  have hcandidates : ∀ c ∈ pets, IsSingle c :=
    List.forall_mem_cons.2 ⟨hc.isSingle, List.forall_mem_singleton.2 ⟨_, _, rfl, rfl⟩⟩
  have hreads : ∀ c ∈ pets, ∃ r, withCat.operation (withMessage adoption c none) = .ok r :=
    List.forall_mem_cons.2 ⟨⟨_, rfl⟩, List.forall_mem_singleton.2 ⟨_, rfl⟩⟩
  obtain ⟨singles, whole, hsingles, hwhole, hmessages, hpayloads, -⟩ :=
    hchoice _ pets _ _ rfl rfl hcandidates hreads nofun
  obtain rfl : ⟨"onAdoption", "", ["Cat", "dog"], ["Animal"]⟩ = whole :=
    Option.some.inj (Except.ok.inj hwhole)
  exact ⟨⟨singles, _, hsingles, hwhole, hmessages.symm, hpayloads.symm⟩, _, List.mem_cons_self, _,
    hc, hbody, (hreference _ _ _ none hc hbody).1 rfl⟩

/-- An operation that has no messages to choose from, and an identifier that cannot be shown. -/
def vastOperation : Mapping := [
  (.text "operationId", .scalar (.int leastUnshown)),
  (.text "message", .mapping [(.text "oneOf", .list [])])]

/-- **A choice from no messages may fail**, though there is no operation with one of them that
does. -/
theorem operation_of_vast :
    Mapping.field? vastOperation "message" = some (.mapping [(.text "oneOf", .list [])]) ∧
      withCat.operation (.mapping vastOperation) = .error (.unshown .digits) := by
  have hid : Mapping.fieldText vastOperation "operationId" = .error (.unshown .digits) :=
    Mapping.fieldText_of_leastUnshown rfl
  refine ⟨rfl, ?_⟩
  rw [operation_eq, hid]
  rfl

end Document

end SchemaClasses
