import SchemaClasses.Generation
import SchemaClasses.Proofs.Acceptance

/-!
# Security schemes of a server

A server lists requirements, and the keys of each are names of security schemes that the document
declares in another section.  `requirements` says which names these are, and
`requiredSchemes_complete` what comes of looking them up: either each of them has its scheme, in
order and as often as it is named, or the failure lists all that have none.

Only one thing may prevent this.  The texts of all servers are read before one of them is chosen,
and those of all schemes, and a text that cannot be shown stops the run; `Legible` says that there
is none.

A project describes the first server unless another one is chosen, and it describes it as if it had
been chosen (`serverSummary_of_falsy`).
-/

namespace SchemaClasses

/-! ## Texts of a section -/

namespace Mapping

variable {m : Mapping} {name : String}

/-- A text can be read exactly if it can be shown. -/
lemma fieldText_cases (m : Mapping) (name : String) :
    ((field m name).limit? = none ∧ ∃ text, fieldText m name = .ok text) ∨
      ∃ limit, (field m name).limit? = some limit ∧ fieldText m name = .error (.unshown limit) := by
  rw [fieldText, field]
  cases field? m name with
  | none => exact Or.inl ⟨rfl, "", rfl⟩
  | some v =>
      cases hlimit : v.limit? with
      | none => exact Or.inl ⟨hlimit, v.display, Value.shown_eq_ok.2 ⟨hlimit, rfl⟩⟩
      | some limit => exact Or.inr ⟨limit, hlimit, Value.shown_of_limit? hlimit⟩

lemma exists_fieldText_iff :
    (∃ text, fieldText m name = .ok text) ↔ (field m name).limit? = none := by
  rcases fieldText_cases m name with ⟨hlimit, htext⟩ | ⟨limit, hlimit, herror⟩
  · exact iff_of_true htext hlimit
  · simp [hlimit, herror]

/-- All texts under some keys can be shown, in every entry that is a mapping. -/
def Legible (entries : Mapping) (keys : List String) : Prop :=
  ∀ e ∈ entries, ∀ m ∈ e.2.mapping?, ∀ key ∈ keys, (field m key).limit? = none

instance (entries : Mapping) (keys : List String) : Decidable (Legible entries keys) :=
  inferInstanceAs (Decidable (∀ e ∈ entries, ∀ m ∈ e.2.mapping?, ∀ key ∈ keys,
    (field m key).limit? = none))

end Mapping

/-! ## Requirements -/

namespace Document

variable {v : Value}

/-- Nothing, or a list of mappings. -/
def IsRequirements (v : Value) : Prop :=
  v.truthy = false ∨
    ∃ items ring, v = .list items ring ∧ ∀ item ∈ items, ∃ m ring, item = .mapping m ring

/-- The names of security schemes in requirements: the keys of each, one after the other. -/
def requirements : Value → List Scalar
  | .list items _ => items.flatMap fun item => Entries.keys (item.mapping?.getD [])
  | _ => []

lemma securityNames_eq (h : IsRequirements v) : securityNames v = .ok (requirements v) := by
  rcases h with hfalsy | ⟨items, ring, rfl, hitems⟩
  · unfold securityNames
    rw [if_pos (by rw [hfalsy]; rfl)]
    cases v with
    | list items ring =>
        obtain rfl : items = [] := by simpa [Value.truthy] using hfalsy
        rfl
    | scalar s => rfl
    | mapping m ring => rfl
  · have hnames : traverse requirementNames items =
        .ok (items.map fun item => Entries.keys (item.mapping?.getD [])) := by
      refine traverse_eq_map fun item hitem => ?_
      obtain ⟨m, ring, rfl⟩ := hitems item hitem
      rfl
    rw [securityNames, hnames, requirements, List.flatMap_def]
    cases items <;> rfl

/-- The names are texts where all keys are. -/
lemma exists_names_of_requirements (h : v.textKeyed = true) :
    ∃ names : List String, requirements v = names.map Scalar.text := by
  refine Lineage.exists_texts fun name hname => ?_
  cases v with
  | scalar s => cases hname
  | mapping m ring => cases hname
  | list items ring =>
      obtain ⟨item, hitem, hname⟩ := List.mem_flatMap.1 hname
      rw [Value.textKeyed_list, Value.textKeyedItems_iff] at h
      have hkeyed := h item hitem
      cases item with
      | scalar s => cases hname
      | list items ring => cases hname
      | mapping m ring =>
          rw [Value.textKeyed_mapping] at hkeyed
          obtain ⟨entry, hentry, rfl⟩ := List.mem_map.1 hname
          exact (Mapping.textKeys_of_textKeyed hkeyed).1 entry hentry

end Document

/-! ## Entries of a section -/

/-- The texts of a server. -/
def serverTexts : List String := ["url", "protocol", "protocolVersion", "description"]

/-- The texts of a security scheme. -/
def schemeTexts : List String := ["type", "description"]

/-- A server says what an entry of the document says. -/
structure Server.Describes (s : Server) (name : Scalar) (m : Mapping) : Prop where
  name : s.name = name
  url : Mapping.fieldText m "url" = .ok s.url
  protocol : Mapping.fieldText m "protocol" = .ok s.protocol
  protocolVersion : Mapping.fieldText m "protocolVersion" = .ok s.protocolVersion
  description : Mapping.fieldText m "description" = .ok s.description
  security : s.security = Document.requirements (Mapping.field m "security")

/-- A security scheme says what an entry of the document says. -/
structure SecurityScheme.Describes (s : SecurityScheme) (name : Scalar) (m : Mapping) : Prop where
  name : s.name = name
  type : Mapping.fieldText m "type" = .ok s.type
  description : Mapping.fieldText m "description" = .ok s.description

namespace Document

variable {α : Type} {describes : α → Scalar → Mapping → Prop} {entries : Mapping}
  {results : Entries Scalar α}

/-- What is read from a section: an entry each, in order and under the same name. -/
def Reads (describes : α → Scalar → Mapping → Prop) (entries : Mapping)
    (results : Entries Scalar α) : Prop :=
  List.Forall₂ (fun e e' => e'.1 = e.1 ∧ ∃ m ring, e.2 = .mapping m ring ∧ describes e'.2 e.1 m)
    entries results

/-- What is found under a name is what was read from the entry of this name. -/
lemma Reads.get?_cases (h : Reads describes entries results) (name : String) :
    (Mapping.field? entries name = none ∧ Entries.get? results (.text name) = none) ∨
      ∃ m ring a, Mapping.field? entries name = some (.mapping m ring) ∧
        Entries.get? results (.text name) = some a ∧ describes a (.text name) m := by
  rw [Mapping.field?]
  induction h with
  | nil => exact Or.inl ⟨rfl, rfl⟩
  | @cons e e' entries results he _ ih =>
      obtain ⟨k, v⟩ := e
      obtain ⟨k', a⟩ := e'
      obtain ⟨rfl, m, ring, rfl, hdescribes⟩ := he
      rw [Entries.get?_cons, Entries.get?_cons]
      split
      · rename_i hname
        rw [Scalar.beq_text] at hname
        exact Or.inr ⟨m, ring, a, rfl, rfl, hname ▸ hdescribes⟩
      · exact ih

lemma Reads.keys (h : Reads describes entries results) :
    Entries.keys results = Entries.keys entries :=
  (map_eq_of_forall₂ h fun _ _ he => he.1.symm).symm

lemma Reads.contains (h : Reads describes entries results) (name : String) :
    Entries.contains results (.text name) = Entries.contains entries (.text name) := by
  rw [Entries.contains_eq_isSome, Entries.contains_eq_isSome]
  rcases h.get?_cases name with ⟨hnone, hnone'⟩ | ⟨m, ring, a, hsome, hsome', -⟩
  · rw [hnone', ← Mapping.field?, hnone]
    rfl
  · rw [hsome', ← Mapping.field?, hsome]
    rfl

/-- Everything that can be read is read, if it can be read entry by entry. -/
lemma exists_reads_iff {keys : List String}
    (hmappings : ∀ e ∈ entries, ∃ m ring, e.2 = .mapping m ring)
    (h : ∀ name m, (∃ a, describes a name m) ↔ ∀ key ∈ keys, (Mapping.field m key).limit? = none) :
    (∃ results, Reads describes entries results) ↔ Mapping.Legible entries keys := by
  simp only [Reads, exists_forall₂_iff]
  constructor
  · intro hreads e he m hm key hkey
    obtain ⟨e', -, m', ring, heq, hdescribes⟩ := hreads e he
    rw [heq] at hm
    obtain rfl := Option.some.inj hm
    exact (h e.1 m').1 ⟨e'.2, hdescribes⟩ key hkey
  · intro hlegible e he
    obtain ⟨m, ring, heq⟩ := hmappings e he
    obtain ⟨a, hdescribes⟩ := (h e.1 m).2 (hlegible e he m (Value.mapping?_eq_some.2 ⟨ring, heq⟩))
    exact ⟨(e.1, a), rfl, m, ring, heq, hdescribes⟩

variable {name : Scalar} {m : Mapping} {ring : Option Nat}

lemma serverEntry_eq_ok (h : IsRequirements (Mapping.field m "security")) {e : Scalar × Server} :
    serverEntry (name, .mapping m ring) = .ok e ↔ e.1 = name ∧ e.2.Describes name m := by
  obtain ⟨name', s⟩ := e
  simp only [serverEntry, securityNames_eq h, bind_eq_ok, Except.ok.injEq, pure, Except.pure,
    Prod.mk.injEq]
  constructor
  · rintro ⟨_, rfl, _, hurl, _, hprotocol, _, hversion, _, hdescription, rfl, rfl⟩
    exact ⟨rfl, rfl, hurl, hprotocol, hversion, hdescription, rfl⟩
  · rintro ⟨rfl, hname, hurl, hprotocol, hversion, hdescription, hsecurity⟩
    refine ⟨_, rfl, _, hurl, _, hprotocol, _, hversion, _, hdescription, rfl, ?_⟩
    rw [← hname, ← hsecurity]

lemma schemeEntry_eq_ok {e : Scalar × SecurityScheme} :
    schemeEntry (name, .mapping m ring) = .ok e ↔ e.1 = name ∧ e.2.Describes name m := by
  obtain ⟨name', s⟩ := e
  simp only [schemeEntry, bind_eq_ok, Except.ok.injEq, pure, Except.pure, Prod.mk.injEq]
  constructor
  · rintro ⟨_, htype, _, hdescription, rfl, rfl⟩
    exact ⟨rfl, rfl, htype, hdescription⟩
  · rintro ⟨rfl, hname, htype, hdescription⟩
    refine ⟨_, htype, _, hdescription, rfl, ?_⟩
    rw [← hname]

lemma exists_server_iff : (∃ s : Server, s.Describes name m) ↔
    ∀ key ∈ serverTexts, (Mapping.field m key).limit? = none := by
  simp only [serverTexts, List.forall_mem_cons, List.not_mem_nil, IsEmpty.forall_iff, implies_true,
    and_true, ← Mapping.exists_fieldText_iff]
  constructor
  · rintro ⟨s, -, hurl, hprotocol, hversion, hdescription, -⟩
    exact ⟨⟨_, hurl⟩, ⟨_, hprotocol⟩, ⟨_, hversion⟩, _, hdescription⟩
  · rintro ⟨⟨_, hurl⟩, ⟨_, hprotocol⟩, ⟨_, hversion⟩, _, hdescription⟩
    exact ⟨⟨name, _, _, _, _, _⟩, rfl, hurl, hprotocol, hversion, hdescription, rfl⟩

lemma exists_scheme_iff : (∃ s : SecurityScheme, s.Describes name m) ↔
    ∀ key ∈ schemeTexts, (Mapping.field m key).limit? = none := by
  simp only [schemeTexts, List.forall_mem_cons, List.not_mem_nil, IsEmpty.forall_iff, implies_true,
    and_true, ← Mapping.exists_fieldText_iff]
  constructor
  · rintro ⟨s, -, htype, hdescription⟩
    exact ⟨⟨_, htype⟩, _, hdescription⟩
  · rintro ⟨⟨_, htype⟩, _, hdescription⟩
    exact ⟨⟨name, _, _⟩, rfl, htype, hdescription⟩

/-! ## Whole sections -/

/-- A text could not be shown. -/
def Unshown (e : Failure) : Prop := ∃ limit, e = .unshown limit

lemma failsOnly_fieldText (m : Mapping) (key : String) :
    FailsOnly Unshown (Mapping.fieldText m key) := by
  intro e he
  rcases Mapping.fieldText_cases m key with ⟨-, text, htext⟩ | ⟨limit, -, herror⟩
  · rw [htext] at he
    cases he
  · exact ⟨limit, Except.error.inj (he.symm.trans herror)⟩

lemma failsOnly_serverEntry (h : IsRequirements (Mapping.field m "security")) :
    FailsOnly Unshown (serverEntry (name, .mapping m ring)) := by
  rw [serverEntry, securityNames_eq h]
  exact (FailsOnly.ok _).bind fun _ => (failsOnly_fieldText m _).bind fun _ =>
    (failsOnly_fieldText m _).bind fun _ => (failsOnly_fieldText m _).bind fun _ =>
    (failsOnly_fieldText m _).bind fun _ => FailsOnly.ok _

lemma failsOnly_schemeEntry : FailsOnly Unshown (schemeEntry (name, .mapping m ring)) :=
  (failsOnly_fieldText m _).bind fun _ => (failsOnly_fieldText m _).bind fun _ => FailsOnly.ok _

/-- A section is read, or one of its texts cannot be shown. -/
lemma traverse_cases {read : Scalar × Value → Except Failure (Scalar × α)} {keys : List String}
    (hmappings : ∀ e ∈ entries, ∃ m ring, e.2 = .mapping m ring)
    (hread : ∀ e ∈ entries, ∀ m ring, e.2 = .mapping m ring → FailsOnly Unshown (read e) ∧
      ∀ e', read e = .ok e' ↔ e'.1 = e.1 ∧ describes e'.2 e.1 m)
    (h : ∀ name m, (∃ a, describes a name m) ↔ ∀ key ∈ keys, (Mapping.field m key).limit? = none) :
    (Mapping.Legible entries keys ∧ ∃ results, traverse read entries = .ok results ∧
        Reads describes entries results) ∨
      (¬ Mapping.Legible entries keys ∧
        ∃ limit, traverse read entries = .error (.unshown limit)) := by
  have hreads : ∀ results,
      traverse read entries = .ok results ↔ Reads describes entries results := by
    intro results
    rw [traverse_eq_ok_iff, Reads]
    refine forall₂_congr fun e he e' => ?_
    obtain ⟨m, ring, heq⟩ := hmappings e he
    rw [(hread e he m ring heq).2 e']
    refine and_congr_right fun _ => ⟨fun hdescribes => ⟨m, ring, heq, hdescribes⟩, ?_⟩
    rintro ⟨m', ring', heq', hdescribes⟩
    obtain ⟨rfl, -⟩ := Value.mapping.inj (heq.symm.trans heq')
    exact hdescribes
  rw [← exists_reads_iff hmappings h]
  cases htraverse : traverse read entries with
  | ok results =>
      have hresults := (hreads results).1 htraverse
      exact Or.inl ⟨⟨results, hresults⟩, results, rfl, hresults⟩
  | error e =>
      have hunshown : FailsOnly Unshown (traverse read entries) :=
        FailsOnly.traverse_of_mem fun e he => by
          obtain ⟨m, ring, heq⟩ := hmappings e he
          exact (hread e he m ring heq).1
      obtain ⟨limit, rfl⟩ := hunshown e htraverse
      refine Or.inr ⟨?_, limit, rfl⟩
      rintro ⟨results, hresults⟩
      rw [(hreads results).2 hresults] at htraverse
      cases htraverse

/-- The servers and security schemes of a document are mappings, and so are all requirements. -/
structure Secured (doc : Document) (servers schemes : Mapping) : Prop where
  serverSection : doc.section? ["servers"] = .ok servers
  schemeSection : doc.section? ["components", "securitySchemes"] = .ok schemes
  server : ∀ e ∈ servers, ∃ m ring, e.2 = .mapping m ring ∧
    IsRequirements (Mapping.field m "security")
  scheme : ∀ e ∈ schemes, ∃ m ring, e.2 = .mapping m ring

variable {doc : Document} {servers schemes : Mapping}

lemma Secured.servers_eq (h : doc.Secured servers schemes) :
    doc.servers = traverse serverEntry servers := by
  rw [Document.servers, h.serverSection]
  rfl

lemma Secured.servers_cases (h : doc.Secured servers schemes) :
    (Mapping.Legible servers serverTexts ∧ ∃ results, doc.servers = .ok results ∧
        Reads Server.Describes servers results) ∨
      (¬ Mapping.Legible servers serverTexts ∧ ∃ limit, doc.servers = .error (.unshown limit)) := by
  rw [h.servers_eq]
  refine traverse_cases (fun e he => ?_) (fun e he m ring heq => ?_) fun _ _ => exists_server_iff
  · obtain ⟨m, ring, heq, -⟩ := h.server e he
    exact ⟨m, ring, heq⟩
  · obtain ⟨m', ring', heq', hrequirements⟩ := h.server e he
    obtain ⟨rfl, -⟩ := Value.mapping.inj (heq.symm.trans heq')
    obtain ⟨name, v⟩ := e
    obtain rfl : v = .mapping m ring := heq
    exact ⟨failsOnly_serverEntry hrequirements, fun e' => serverEntry_eq_ok hrequirements⟩

lemma Secured.securitySchemes_cases (h : doc.Secured servers schemes) :
    (Mapping.Legible schemes schemeTexts ∧ ∃ results, doc.securitySchemes = .ok results ∧
        Reads SecurityScheme.Describes schemes results) ∨
      (¬ Mapping.Legible schemes schemeTexts ∧
        ∃ limit, doc.securitySchemes = .error (.unshown limit)) := by
  have hschemes : doc.securitySchemes = traverse schemeEntry schemes := by
    rw [Document.securitySchemes, h.schemeSection]
    rfl
  rw [hschemes]
  refine traverse_cases h.scheme (fun e he m ring heq => ?_) fun _ _ => exists_scheme_iff
  obtain ⟨name, v⟩ := e
  obtain rfl : v = .mapping m ring := heq
  exact ⟨failsOnly_schemeEntry, fun e' => schemeEntry_eq_ok⟩

/-! ## Required schemes -/

lemma server_eq {results : Entries Scalar Server} (h : doc.servers = .ok results) (name : String) :
    doc.server (.text name) = match Entries.get? results (.text name) with
      | some s => .ok s
      | none => textNames (Entries.keys results) >>= fun known =>
          .error (.document (.unknownServer (.text name) known)) := by
  rw [server, h]
  rfl

/-- With the server and the schemes at hand, it only matters which names are declared. -/
lemma requiredSchemes_eq {s : Server} {results : Entries Scalar SecurityScheme} {name : String}
    {names : List String} (hserver : doc.server (.text name) = .ok s)
    (hschemes : doc.securitySchemes = .ok results) (hnames : s.security = names.map Scalar.text) :
    doc.requiredSchemes (.text name) =
      if ∀ key ∈ s.security, Entries.contains results key = true then
        .ok (s.security.filterMap (Entries.get? results))
      else .error (.document (.undeclaredSchemes (.text name)
        (names.filter fun key => !Entries.contains results (.text key)))) := by
  have hmissing : (s.security.filter fun key => !Entries.contains results key) =
      (names.filter fun key => !Entries.contains results (.text key)).map Scalar.text := by
    rw [hnames, List.filter_map]
    rfl
  have hempty : (s.security.filter fun key => !Entries.contains results key).isEmpty = true ↔
      ∀ key ∈ s.security, Entries.contains results key = true := by
    simp [List.filter_eq_nil_iff]
  rw [requiredSchemes, hserver, hschemes]
  change (if (s.security.filter fun key => !Entries.contains results key).isEmpty = true then _
    else _) = _
  simp only [hempty]
  refine if_congr Iff.rfl rfl ?_
  rw [hmissing, textNames_map_text]
  rfl

/-- All texts of servers and security schemes can be shown. -/
def AllLegible (servers schemes : Mapping) : Prop :=
  Mapping.Legible servers serverTexts ∧ Mapping.Legible schemes schemeTexts

/-- The required names that no scheme is declared for. -/
def undeclared (schemes body : Mapping) : List Scalar :=
  (requirements (Mapping.field body "security")).filter fun key => !Entries.contains schemes key

/-- The schemes of a server are the declared ones under the names that it requires, in order. -/
def Requires (schemes body : Mapping) (result : List SecurityScheme) : Prop :=
  List.Forall₂ (fun key scheme => ∃ m ring, Entries.get? schemes key = some (.mapping m ring) ∧
    scheme.Describes key m) (requirements (Mapping.field body "security")) result

lemma undeclared_eq_nil_iff {body : Mapping} : undeclared schemes body = [] ↔
    ∀ key ∈ requirements (Mapping.field body "security"), Entries.contains schemes key = true := by
  simp [undeclared, List.filter_eq_nil_iff]

/-- The requirements of a server with text keys are texts. -/
lemma exists_names_of_server (hdoc : doc.TextKeyed) (h : doc.Secured servers schemes)
    {name : String} {body : Mapping}
    (hbody : Mapping.field? servers name = some (.mapping body ring)) :
    ∃ names : List String,
      requirements (Mapping.field body "security") = names.map Scalar.text := by
  have hkeyed := Mapping.textKeyed_of_field? (hdoc.section? h.serverSection) hbody
  rw [Value.textKeyed_mapping] at hkeyed
  refine exists_names_of_requirements ?_
  cases hsecurity : Mapping.field? body "security" with
  | none => rw [Mapping.field, hsecurity, Option.getD_none, Value.textKeyed_scalar]
  | some v =>
      rw [Mapping.field_of_field? hsecurity]
      exact Mapping.textKeyed_of_field? hkeyed hsecurity

/-- A declared server whose requirements and schemes can be read: either all schemes are found, or
some names are undeclared. -/
lemma requiredSchemes_of_server {name : String} {names : List String} {body : Mapping} {s : Server}
    {results : Entries Scalar SecurityScheme} (hserver : doc.server (.text name) = .ok s)
    (hdescribes : s.Describes (.text name) body) (hschemes : doc.securitySchemes = .ok results)
    (hreads : Reads SecurityScheme.Describes schemes results)
    (hnames : requirements (Mapping.field body "security") = names.map Scalar.text) :
    (undeclared schemes body = [] ∧ ∃ result, doc.requiredSchemes (.text name) = .ok result ∧
        Requires schemes body result) ∨
      ∃ missing : List String, missing ≠ [] ∧ missing.map Scalar.text = undeclared schemes body ∧
        doc.requiredSchemes (.text name) =
          .error (.document (.undeclaredSchemes (.text name) missing)) := by
  have hsecurity : s.security = names.map Scalar.text := hdescribes.security.trans hnames
  have hcontains : ∀ key ∈ names.map Scalar.text,
      Entries.contains results key = Entries.contains schemes key :=
    List.forall_mem_map.2 fun key _ => hreads.contains key
  have hundeclared : undeclared schemes body =
      (names.filter fun key => !Entries.contains results (.text key)).map Scalar.text := by
    rw [undeclared, hnames, List.filter_map]
    refine congrArg _ (List.filter_congr fun key _ => ?_)
    rw [Function.comp_apply, hreads.contains key]
  have heq := requiredSchemes_eq hserver hschemes hsecurity
  by_cases hall : ∀ key ∈ s.security, Entries.contains results key = true
  · rw [if_pos hall, hdescribes.security] at heq
    rw [hdescribes.security, hnames] at hall
    refine Or.inl ⟨?_, _, heq, forall₂_filterMap fun key hkey => ?_⟩
    · rw [undeclared_eq_nil_iff, hnames]
      exact fun key hkey => (hcontains key hkey).symm.trans (hall key hkey)
    · rw [hnames] at hkey
      have hfound := hall key hkey
      obtain ⟨text, -, rfl⟩ := List.mem_map.1 hkey
      rw [Entries.contains_eq_isSome] at hfound
      rcases hreads.get?_cases text with ⟨-, hnone⟩ | ⟨m, ring, scheme, hsome, hscheme, hm⟩
      · rw [hnone] at hfound
        cases hfound
      · exact ⟨scheme, hscheme, m, ring, hsome, hm⟩
  · rw [if_neg hall] at heq
    refine Or.inr ⟨_, fun hnil => hall fun key hkey => ?_, hundeclared.symm, heq⟩
    rw [hnil, List.map_nil, undeclared_eq_nil_iff, hnames] at hundeclared
    rw [hsecurity] at hkey
    exact (hcontains key hkey).trans (hundeclared key hkey)

/-- **What comes of the required schemes.**  A text cannot be shown; the server is not declared;
some of the schemes are not declared; or all schemes are found. -/
lemma Secured.requiredSchemes_cases (hdoc : doc.TextKeyed) (h : doc.Secured servers schemes)
    (name : String) :
    (∃ limit, ¬ AllLegible servers schemes ∧
        doc.requiredSchemes (.text name) = .error (.unshown limit)) ∨
      (∃ known : List String, Mapping.field? servers name = none ∧
        known.map Scalar.text = Entries.keys servers ∧ doc.requiredSchemes (.text name) =
          .error (.document (.unknownServer (.text name) known))) ∨
      ∃ body ring, AllLegible servers schemes ∧
        Mapping.field? servers name = some (.mapping body ring) ∧
        ((undeclared schemes body = [] ∧ ∃ result, doc.requiredSchemes (.text name) = .ok result ∧
            Requires schemes body result) ∨
          ∃ missing : List String, missing ≠ [] ∧
            missing.map Scalar.text = undeclared schemes body ∧ doc.requiredSchemes (.text name) =
              .error (.document (.undeclaredSchemes (.text name) missing))) := by
  rcases h.servers_cases with ⟨hlegible, results, hresults, hreads⟩ | ⟨hillegible, limit, herror⟩
  · rcases hreads.get?_cases name with ⟨hnone, hnone'⟩ | ⟨body, ring, s, hbody, hs, hdescribes⟩
    · have hkeys := (Mapping.textKeys_of_textKeyed (hdoc.section? h.serverSection)).1
      obtain ⟨known, hknown⟩ := Lineage.exists_texts (List.forall_mem_map.2 hkeys)
      refine Or.inr (Or.inl ⟨known, hnone, hknown.symm, ?_⟩)
      rw [requiredSchemes, server_eq hresults, hnone', hreads.keys, Entries.keys, hknown,
        textNames_map_text]
      rfl
    · have hserver : doc.server (.text name) = .ok s := by rw [server_eq hresults, hs]
      rcases h.securitySchemes_cases with ⟨hlegible', results', hresults', hreads'⟩ |
        ⟨hillegible', limit, herror'⟩
      · obtain ⟨names, hnames⟩ := exists_names_of_server hdoc h hbody
        exact Or.inr (Or.inr ⟨body, ring, ⟨hlegible, hlegible'⟩, hbody,
          requiredSchemes_of_server hserver hdescribes hresults' hreads' hnames⟩)
      · refine Or.inl ⟨limit, fun hall => hillegible' hall.2, ?_⟩
        rw [requiredSchemes, hserver, herror']
        rfl
  · refine Or.inl ⟨limit, fun hall => hillegible hall.1, ?_⟩
    rw [requiredSchemes, Document.server, herror]
    rfl

/-! ## The server of a project -/

open ProjectSummary (serverName serverSummary)

/-- **Where no server is chosen, the first one is**, and what fails is the same. -/
lemma Secured.serverSummary_of_falsy (h : doc.Secured servers schemes) {first : String} {v : Value}
    {rest : Mapping} (hservers : servers = (.text first, v) :: rest) (hfirst : first ≠ "")
    {choice : Value} (hchoice : choice.truthy = false) :
    serverSummary doc choice = serverSummary doc (.text first) := by
  have htruthy : (Value.text first).truthy = true := by simpa [Value.truthy] using hfirst
  have hchosen : serverName doc (.text first) = .ok (.text first) := if_pos htruthy
  have hunchosen : ¬ choice.truthy = true := by rw [hchoice]; exact Bool.false_ne_true
  rcases h.servers_cases with ⟨-, results, hresults, hreads⟩ | ⟨-, limit, herror⟩
  · have hsame : serverName doc choice = .ok (.text first) := by
      rw [hservers] at hreads
      rcases hreads with _ | @⟨_, ⟨name, s⟩, _, _, ⟨hkey, -⟩, -⟩
      obtain rfl : name = .text first := hkey
      rw [serverName, if_neg hunchosen, hresults]
      rfl
    rw [serverSummary, serverSummary, hsame, hchosen]
  · have hfailed : serverName doc choice = .error (.unshown limit) := by
      rw [serverName, if_neg hunchosen, herror]
      rfl
    have hserver : doc.server (.text first) = .error (.unshown limit) := by
      rw [Document.server, herror]
      rfl
    rw [serverSummary, serverSummary, hfailed, hchosen]
    change _ = (if (Value.text first).truthy = true then _ else _)
    rw [if_pos htruthy, hserver]
    rfl

/-- A summary describes the server of this name, with the schemes it requires. -/
lemma serverSummary_eq_ok {name : String} (hname : name ≠ "") {summary : Option ServerSummary} :
    serverSummary doc (.text name) = .ok summary ↔ ∃ s, summary = some s ∧
      doc.server (.text name) = .ok s.server ∧
      doc.requiredSchemes (.text name) = .ok s.schemes := by
  have htruthy : (Value.text name).truthy = true := by simpa [Value.truthy] using hname
  have hchosen : serverName doc (.text name) = .ok (.text name) := if_pos htruthy
  simp only [serverSummary, hchosen, bind_eq_ok, Except.ok.injEq, exists_eq_left', htruthy, if_true,
    pure, Except.pure]
  constructor
  · rintro ⟨server, hserver, schemes, hschemes, rfl⟩
    exact ⟨_, rfl, hserver, hschemes⟩
  · rintro ⟨s, rfl, hserver, hschemes⟩
    exact ⟨_, hserver, _, hschemes, rfl⟩

/-- The choice of a server only matters for what is said of it. -/
lemma generation_congr {choice choice' : Value}
    (h : serverSummary doc choice = serverSummary doc choice') (registry : TypeRegistry)
    (language : Language) (settings : Settings) :
    Generation.ofDocument doc registry language { settings with server := choice } =
      Generation.ofDocument doc registry language { settings with server := choice' } := by
  have hmake : ∀ model,
      ProjectSummary.make doc model language { settings with server := choice } =
        ProjectSummary.make doc model language { settings with server := choice' } := by
    intro model
    simp only [ProjectSummary.make, h]
  have hfiles : ∀ model, Project.files doc model language { settings with server := choice } =
      Project.files doc model language { settings with server := choice' } := by
    intro model
    rw [Project.files, hmake, Project.files]
  have hwriter : Generation.writer language { settings with server := choice } =
      Generation.writer language { settings with server := choice' } := rfl
  simp only [Generation.ofDocument, Generation.ofDocumentWith, Generation.withProject, hfiles,
    hwriter, Generation.modelOf]

/-- **The schemes of a server are found exactly if they are declared.**  If all texts can be shown,
the schemes of a declared server are those that it requires, each as often as it is required and in
this order; otherwise the failure is about the document, and of a declared server it lists the names
that no scheme is declared for.  Where no server is chosen, a project describes the first one, and
fails or not, as if it had been chosen. -/
theorem requiredSchemes_complete (hdoc : doc.TextKeyed) (h : doc.Secured servers schemes) :
    (∀ name : String,
      ((∃ result, doc.requiredSchemes (.text name) = .ok result) ↔ AllLegible servers schemes ∧
        ∃ body ring, Mapping.field? servers name = some (.mapping body ring) ∧
          ∀ key ∈ requirements (Mapping.field body "security"),
            Entries.contains schemes key = true) ∧
      (∀ result, doc.requiredSchemes (.text name) = .ok result →
        ∃ body ring, Mapping.field? servers name = some (.mapping body ring) ∧
          Requires schemes body result) ∧
      ∀ e, doc.requiredSchemes (.text name) = .error e →
        (¬ AllLegible servers schemes ∧ ∃ limit, e = .unshown limit) ∨
        (Mapping.field? servers name = none ∧ ∃ known : List String,
          known.map Scalar.text = Entries.keys servers ∧
            e = .document (.unknownServer (.text name) known)) ∨
        ∃ body ring, ∃ missing : List String,
          Mapping.field? servers name = some (.mapping body ring) ∧ missing ≠ [] ∧
            missing.map Scalar.text = undeclared schemes body ∧
              e = .document (.undeclaredSchemes (.text name) missing)) ∧
    ∀ first v rest choice, servers = (.text first, v) :: rest → first ≠ "" →
      choice.truthy = false →
      serverSummary doc choice = serverSummary doc (.text first) ∧
      (∀ summary, serverSummary doc choice = .ok summary → ∃ s, summary = some s ∧
        doc.server (.text first) = .ok s.server ∧
        doc.requiredSchemes (.text first) = .ok s.schemes) ∧
      ∀ registry language (settings : Settings),
        Generation.ofDocument doc registry language { settings with server := choice } =
          Generation.ofDocument doc registry language { settings with server := .text first } := by
  refine ⟨fun name => ?_, fun first v rest choice hservers hfirst hchoice => ?_⟩
  · rcases h.requiredSchemes_cases hdoc name with ⟨limit, hillegible, herror⟩ |
      ⟨known, hnone, hknown, herror⟩ | ⟨body, ring, hlegible, hbody, hfound⟩
    · rw [herror]
      exact ⟨iff_of_false nofun fun hok => hillegible hok.1, nofun,
        fun e he => Or.inl ⟨hillegible, limit, (Except.error.inj he).symm⟩⟩
    · rw [herror]
      refine ⟨iff_of_false nofun ?_, nofun,
        fun e he => Or.inr (Or.inl ⟨hnone, known, hknown, (Except.error.inj he).symm⟩)⟩
      rintro ⟨-, body, ring, hbody, -⟩
      rw [hnone] at hbody
      cases hbody
    · rcases hfound with ⟨hdeclared, result, hok, hresult⟩ | ⟨missing, hne, hmissing, herror⟩
      · rw [hok]
        refine ⟨iff_of_true ⟨result, rfl⟩ ⟨hlegible, body, ring, hbody,
          undeclared_eq_nil_iff.1 hdeclared⟩, fun result' heq => ?_, fun e he => by cases he⟩
        rw [← Except.ok.inj heq]
        exact ⟨body, ring, hbody, hresult⟩
      · rw [herror]
        refine ⟨iff_of_false nofun ?_, nofun, fun e he => Or.inr (Or.inr ⟨body, ring, missing,
          hbody, hne, hmissing, (Except.error.inj he).symm⟩)⟩
        rintro ⟨-, body', ring', hbody', hall⟩
        obtain ⟨rfl, -⟩ := Value.mapping.inj (Option.some.inj (hbody.symm.trans hbody'))
        rw [undeclared_eq_nil_iff.2 hall] at hmissing
        exact hne (List.map_eq_nil_iff.1 hmissing)
  · have hsame := h.serverSummary_of_falsy hservers hfirst hchoice
    rw [hsame]
    exact ⟨rfl, fun summary => (serverSummary_eq_ok hfirst).1, generation_congr hsame⟩

/-! ## Two servers -/

/-- The declared servers of a shop.  The first requires two schemes at once and one of them
again. -/
def shopServers : Mapping := [
  (.text "live", .mapping [(.text "security", .list [
    .mapping [(.text "login", .list []), (.text "key", .list [])],
    .mapping [(.text "login", .list [])]])]),
  (.text "test", .mapping [(.text "security", .list [.mapping [(.text "badge", .list [])]])])]

/-- The declared schemes of the shop. -/
def shopSchemes : Mapping := [
  (.text "key", .mapping [(.text "type", .text "apiKey")]),
  (.text "login", .mapping [(.text "type", .text "userPassword")])]

def shop : Document where
  entries := [(.text "servers", .mapping shopServers),
    (.text "components", .mapping [(.text "securitySchemes", .mapping shopSchemes)])]

/-- The first server has its schemes, the second one asks for a scheme that is not declared, and a
project describes the first. -/
theorem requiredSchemes_of_shop : shop.TextKeyed ∧ shop.Secured shopServers shopSchemes ∧
    (∃ result body ring, shop.requiredSchemes (.text "live") = .ok result ∧
      Mapping.field? shopServers "live" = some (.mapping body ring) ∧
      Requires shopSchemes body result) ∧
    (¬ ∃ result, shop.requiredSchemes (.text "test") = .ok result) ∧
    serverSummary shop (.text "") = serverSummary shop (.text "live") := by
  have hdoc : shop.TextKeyed := by decide
  have hsecured : shop.Secured shopServers shopSchemes := {
    serverSection := rfl
    schemeSection := rfl
    server := List.forall_mem_cons.2 ⟨⟨_, _, rfl, Or.inr ⟨_, _, rfl, List.forall_mem_cons.2
      ⟨⟨_, _, rfl⟩, List.forall_mem_singleton.2 ⟨_, _, rfl⟩⟩⟩⟩, List.forall_mem_singleton.2
      ⟨_, _, rfl, Or.inr ⟨_, _, rfl, List.forall_mem_singleton.2 ⟨_, _, rfl⟩⟩⟩⟩
    scheme := List.forall_mem_cons.2 ⟨⟨_, _, rfl⟩, List.forall_mem_singleton.2 ⟨_, _, rfl⟩⟩ }
  have hlegible : AllLegible shopServers shopSchemes := ⟨by decide, by decide⟩
  obtain ⟨hnames, hfirst⟩ := requiredSchemes_complete hdoc hsecured
  obtain ⟨result, hresult⟩ := (hnames "live").1.2 ⟨hlegible, _, none, rfl, by decide⟩
  obtain ⟨body, ring, hbody, hrequires⟩ := (hnames "live").2.1 result hresult
  refine ⟨hdoc, hsecured, ⟨result, body, ring, hresult, hbody, hrequires⟩, fun hok => ?_,
    (hfirst "live" _ _ (.text "") rfl (by decide) rfl).1⟩
  obtain ⟨-, body, ring, hbody, hall⟩ := (hnames "test").1.1 hok
  obtain ⟨rfl, -⟩ := Value.mapping.inj (Option.some.inj hbody)
  exact absurd (hall (.text "badge") List.mem_cons_self) (by decide)

/-! ## A text that cannot be shown -/

/-- A server whose address cannot be shown. -/
def vastServers : Mapping := [
  (.text "a", .mapping [(.text "url", .scalar (.int leastUnshown))])]

def vastShop : Document where
  entries := [(.text "servers", .mapping vastServers)]

/-- **A declared server without requirements may have no list of schemes**, as its texts are read,
and the failure is not about the document. -/
theorem requiredSchemes_of_vast : vastShop.TextKeyed ∧ vastShop.Secured vastServers [] ∧
    Mapping.field? vastServers "a" =
      some (.mapping [(.text "url", .scalar (.int leastUnshown))]) ∧
    requirements (Mapping.field [(.text "url", .scalar (.int leastUnshown))] "security") = [] ∧
    vastShop.requiredSchemes (.text "a") = .error (.unshown .digits) := by
  have hurl : Mapping.fieldText [(.text "url", .scalar (.int leastUnshown))] "url" =
      .error (.unshown .digits) := Mapping.fieldText_of_leastUnshown rfl
  have hsecured : vastShop.Secured vastServers [] := {
    serverSection := rfl
    schemeSection := rfl
    server := List.forall_mem_singleton.2 ⟨_, _, rfl, Or.inl rfl⟩
    scheme := List.forall_mem_nil _ }
  refine ⟨rfl, hsecured, rfl, rfl, ?_⟩
  have hentry : serverEntry (.text "a", .mapping [(.text "url", .scalar (.int leastUnshown))]) =
      .error (.unshown .digits) := by
    rw [serverEntry, hurl]
    rfl
  have hservers : vastShop.servers = .error (.unshown .digits) := by
    rw [hsecured.servers_eq, vastServers, traverse, hentry]
  rw [requiredSchemes, server, hservers]
  rfl

end Document

end SchemaClasses
