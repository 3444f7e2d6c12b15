import StoreBinding.Proofs.EnvironmentFile
import StoreBinding.Proofs.Spelling
import StoreBinding.Proofs.Variables
import StoreBinding.Config

/-!
Where the properties of the smoke command come from. Each has a variable, named after it, which is
looked for in the process environment first and in an environment file second, under any spelling.
Main statement: the properties that settings hand on are exactly the texts of these variables, and
they resolve as any mapping with these texts does; all other variables make no difference.
-/
namespace StoreBinding

namespace Property

def variableName (p : Property) : String :=
  "COUCHBASE_" ++ String.ofList
    (p.name.toList.flatMap fun c => if c.isUpper then ['_', c] else [c.toUpper])

end Property

/-- Only the values under the spellings of the properties count. -/
theorem Config.resolve_congr {m m' : RawProperties}
    (h : ∀ p : Property, m.get? p.key = m'.get? p.key ∧ m.get? p.name = m'.get? p.name) :
    Config.resolve m = Config.resolve m' := by
  have heffective : ∀ p, Properties.effective? m p = Properties.effective? m' p := by
    intro p
    rw [Properties.effective?, Properties.effective?, (h p).1, (h p).2]
  have hread : Properties.read m = Properties.read m' := by
    apply Properties.read_congr
    intro p
    rw [Properties.effective?_inForce, Properties.effective?_inForce, heffective, heffective]
  rw [Config.resolve, Config.resolve, hread]

namespace Settings

theorem name_binding (p : Property) : (Setting.binding p).name = lower p.variableName := by
  cases p <;> decide +kernel

def text? (environment : List (String × String)) (inFile : String → Option String)
    (p : Property) : Option String :=
  match environment.find? fun v => spells p.variableName v.1 with
  | some v => some v.2
  | none => inFile p.variableName

def stated? (environment : List (String × String)) (assigned : List (String × Option String)) :
    Property → Option String :=
  text? environment (fileText? assigned)

def Holds (m : RawProperties) (texts : Property → Option String) : Prop :=
  ∀ p : Property, m.get? p.key = (texts p).map .text ∧ m.get? p.name = none

/-- Where a setting of the binding is looked up, its text is found. -/
theorem source_binding {environment : List (String × String)}
    (h : (environment.map fun v => lower v.1).Nodup) (assigned : List (String × Option String))
    (p : Property) :
    source environment (.ofList assigned) (Setting.binding p).name =
      (stated? environment assigned p).map .text := by
  rw [source, name_binding, get?_lowered_of_nodup h, get?_lowered_ofList, stated?, text?]
  cases environment.find? fun v => spells p.variableName v.1 with
  | none => rfl
  | some v => rfl

/-- A text of the binding is taken as it is, whatever it says. -/
theorem binding?_of_source {source : Source} {p : Property} {t : Option String}
    (h : source (Setting.binding p).name = t.map .text) : binding? source p = .ok t := by
  rw [binding?, field, h]
  cases t with
  | none => rfl
  | some t => rfl

theorem binding_of_load {environment : List (String × String)} {file : String} {s : Settings}
    (hnames : (environment.map fun v => lower v.1).Nodup) (hload : load environment file = .ok s)
    (p : Property) :
    s.binding p = stated? environment (VariableFile.assignments environment file) p := by
  have hsource := source_binding hnames (VariableFile.assignments environment file) p
  unfold load read at hload
  split at hload
  · cases hload
    rw [VariableFile.read_eq_ofList]
    dsimp only
    rw [binding?_of_source hsource]
    rfl
  · cases hload

theorem lookup_key (binding : Property → Option String) (l : List Property) (p : Property) :
    (l.filterMap fun q => (binding q).map fun v => (q.key, Value.text v)).lookup p.key =
      if p ∈ l then (binding p).map .text else none := by
  induction l with
  | nil => rfl
  | cons q rest ih =>
    by_cases hq : p = q
    · subst hq
      rw [if_pos List.mem_cons_self]
      cases h : binding p with
      | none =>
        rw [List.filterMap_cons_none (by rw [h]; rfl), ih, h]
        exact ite_self _
      | some v =>
        rw [List.filterMap_cons_some (b := (p.key, Value.text v)) (by rw [h]; rfl),
          List.lookup_cons, beq_self_eq_true]
        rfl
    · have hmem : p ∈ q :: rest ↔ p ∈ rest := by simp [hq]
      have hkey : (p.key == q.key) = false :=
        beq_eq_false_iff_ne.mpr fun heq => hq (Property.key_injective heq)
      simp only [hmem, ← ih]
      cases h : binding q with
      | none => rw [List.filterMap_cons_none (by rw [h]; rfl)]
      | some v =>
        rw [List.filterMap_cons_some (b := (q.key, Value.text v)) (by rw [h]; rfl),
          List.lookup_cons, hkey]

/-- The properties of settings have a text under the key of each property that is set. -/
theorem get?_properties_key (s : Settings) (p : Property) :
    s.properties.get? p.key = (s.binding p).map .text := by
  have hmem : p ∈ Property.all.reverse := by cases p <;> decide
  rw [properties, OrderedMap.get?_ofList, ← List.filterMap_reverse, lookup_key, if_pos hmem]

theorem get?_properties_name (s : Settings) (p : Property) :
    s.properties.get? p.name = none := by
  rw [OrderedMap.get?_eq_none_iff, properties, OrderedMap.keys_ofList, List.mem_eraseDups]
  intro hmem
  obtain ⟨e, he, hname⟩ := List.mem_map.mp hmem
  obtain ⟨q, -, hq⟩ := List.mem_filterMap.mp he
  obtain ⟨v, -, rfl⟩ := Option.map_eq_some_iff.mp hq
  exact Property.name_ne_key p q hname.symm

theorem stated?_congr {environment environment' : List (String × String)}
    {assigned assigned' : List (String × Option String)} {p : Property}
    (henvironment : (environment.filter fun v => spells p.variableName v.1) =
      environment'.filter fun v => spells p.variableName v.1)
    (hassigned : (assigned.filter fun a => spells p.variableName a.1) =
      assigned'.filter fun a => spells p.variableName a.1) :
    stated? environment assigned p = stated? environment' assigned' p := by
  have hfile := congrArg (fileText? · p.variableName) hassigned
  simp only [fileText?_filter] at hfile
  rw [stated?, stated?, text?, text?, ← List.head?_filter, ← List.head?_filter, henvironment,
    hfile]

theorem load_text (environment : List (String × String)) (f : VariableFile.Listing) :
    load environment f.text = read (source environment (.ofList f.assigned)) := by
  rw [load, VariableFile.read_eq_ofList, f.assignments_text]

theorem spells_variableName (p : Property) (name : String) :
    spells p.variableName name = (lower name == (Setting.binding p).name) := by
  rw [spells, name_binding]

/-- Texts for the binding and nothing else are always accepted. -/
theorem read_of_source {source : Source} {texts : Property → Option String}
    (hbinding : ∀ p, source (Setting.binding p).name = (texts p).map .text)
    (hother : ∀ s : Setting, (∀ p, s ≠ .binding p) → source s.name = none) :
    ∃ s, read source = .ok s := by
  have hdefault {α : Type} (s : Setting) (hs : ∀ p, s ≠ .binding p) (default : α)
      (reader : Value → Except Problem α) : field source s default reader = .ok default := by
    rw [field, hother s hs]
  have hproblems : problems source = [] := by
    simp only [problems, binding?_of_source (hbinding _), table?, size?, logLevel?, logFormat?,
      hdefault .table nofun, hdefault .recordCount nofun, hdefault .fieldCount nofun,
      hdefault .fieldLength nofun, hdefault .threads nofun, hdefault .logLevel nofun,
      hdefault .logFormat nofun]
    rfl
  rw [read, hproblems]
  exact ⟨_, rfl⟩

/-- A variable of the binding is none of another setting. -/
theorem ne_name_of_spells {p : Property} {name : String} (h : spells p.variableName name = true)
    {s : Setting} (hs : ∀ q, s ≠ .binding q) : lower name ≠ s.name := by
  rw [spells_variableName, beq_iff_eq] at h
  rw [h]
  cases s with
  | binding q => exact absurd rfl (hs q)
  | _ => cases p <;> decide

/-- Settings are loaded if there is nothing but variables of the binding. -/
theorem exists_load {environment : List (String × String)} {f : VariableFile.Listing}
    (hnames : (environment.map fun v => lower v.1).Nodup)
    (henvironment : ∀ v ∈ environment, ∃ p : Property, spells p.variableName v.1 = true)
    (hfile : ∀ a ∈ f.assigned, ∃ p : Property, spells p.variableName a.1 = true) :
    ∃ s, load environment f.text = .ok s := by
  rw [load_text]
  apply read_of_source (source_binding hnames f.assigned)
  intro s hs
  have hinner : (lowered environment).get? s.name = none := by
    apply get?_lowered_eq_none
    intro v hv
    obtain ⟨p, hp⟩ := henvironment v hv
    exact ne_name_of_spells hp hs
  have houter : (lowered (OrderedMap.ofList f.assigned).entries).get? s.name = none := by
    apply get?_lowered_eq_none
    intro a ha
    have hmem : a.1 ∈ (OrderedMap.ofList f.assigned).keys := List.mem_map_of_mem ha
    rw [OrderedMap.keys_ofList, List.mem_eraseDups] at hmem
    obtain ⟨a', ha', heq⟩ := List.mem_map.mp hmem
    obtain ⟨p, hp⟩ := hfile a' ha'
    exact ne_name_of_spells (heq ▸ hp) hs
  rw [source, hinner, houter]
  rfl

theorem holds_properties (s : Settings) : Holds s.properties s.binding := fun p =>
  ⟨s.get?_properties_key p, s.get?_properties_name p⟩

theorem resolve_of_holds {m m' : RawProperties} {texts : Property → Option String}
    (h : Holds m texts) (h' : Holds m' texts) : Config.resolve m = Config.resolve m' :=
  Config.resolve_congr fun p => ⟨(h p).1.trans (h' p).1.symm, (h p).2.trans (h' p).2.symm⟩

/-- The properties that settings hand on are the texts of their variables, unchanged, and resolve as
any mapping with these texts does. Other variables make no difference, in the environment or in the
file. If the file spells a variable in one way, the last assignment gives its text. The assignments
of a file are those of its lines. -/
theorem load_properties {environment : List (String × String)} {file : String} {s : Settings}
    (hnames : (environment.map fun v => lower v.1).Nodup) (hload : load environment file = .ok s) :
    Holds s.properties (stated? environment (VariableFile.assignments environment file)) ∧
    (∀ m, Holds m (stated? environment (VariableFile.assignments environment file)) →
      Config.resolve s.properties = Config.resolve m) ∧
    (∀ environment' file' s', (environment'.map fun v => lower v.1).Nodup →
      load environment' file' = .ok s' →
      (∀ p : Property,
        (environment.filter fun v => spells p.variableName v.1) =
          (environment'.filter fun v => spells p.variableName v.1) ∧
        ((VariableFile.assignments environment file).filter fun a =>
            spells p.variableName a.1) =
          (VariableFile.assignments environment' file').filter fun a =>
            spells p.variableName a.1) →
      Config.resolve s.properties = Config.resolve s'.properties) ∧
    (∀ p : Property,
      (∀ a ∈ VariableFile.assignments environment file,
        ∀ b ∈ VariableFile.assignments environment file,
        spells p.variableName a.1 = true → spells p.variableName b.1 = true → a.1 = b.1) →
      stated? environment (VariableFile.assignments environment file) p =
        text? environment (latest? (VariableFile.assignments environment file)) p) ∧
    ∀ f : VariableFile.Listing, file = f.text →
      VariableFile.assignments environment file = f.assigned := by
  have hholds : Holds s.properties
      (stated? environment (VariableFile.assignments environment file)) := by
    rw [← funext (binding_of_load hnames hload)]
    exact s.holds_properties
  refine ⟨hholds, fun m hm => resolve_of_holds hholds hm, ?_, ?_, ?_⟩
  · intro environment' file' s' hnames' hload' hagree
    have htexts : stated? environment (VariableFile.assignments environment file) =
        stated? environment' (VariableFile.assignments environment' file') :=
      funext fun p => stated?_congr (hagree p).1 (hagree p).2
    have hholds' := s'.holds_properties
    rw [funext (binding_of_load hnames' hload'), ← htexts] at hholds'
    exact resolve_of_holds hholds hholds'
  · intro p hone
    rw [stated?, text?, text?, fileText?_of_one_spelling hone]
  · rintro f rfl
    exact f.assignments_text environment

def staged : VariableFile.Listing where
  lines := [
    (.comment .empty " bench".toList (by decide +kernel), false),
    (.simple "COUCHBASE_HOST" "elsewhere" (by decide +kernel), false),
    (.assignment .empty
      { letters := "COUCHBASE_BUCKET".toList
        exported := some [' ']
        isWord := by decide +kernel
        nonempty := by decide +kernel
        isGap := by decide +kernel
        unexported := nofun }
      ⟨[' '], by decide +kernel⟩ ⟨[' '], by decide +kernel⟩
      (.quoted '"' "a bucket".toList (by decide +kernel))
      { gap := [' ']
        remark := some " a comment".toList
        isGap := by decide +kernel
        isRemark := by decide +kernel
        spaced := by decide }, true),
    (.simple "COUCHBASE_PASSWORD" "" (by decide +kernel), false)]
  last := .naming .empty (.plain "COUCHBASE_DURABILITY".toList (by decide +kernel)) .empty

theorem assigned_staged : staged.assigned =
    [("COUCHBASE_HOST", some "elsewhere"), ("COUCHBASE_BUCKET", some "a bucket"),
      ("COUCHBASE_PASSWORD", some ""), ("COUCHBASE_DURABILITY", none)] := by
  decide +kernel

theorem lower_staged : lower "COUCHBASE_HOST" = "couchbase_host" ∧
    lower "COUCHBASE_BUCKET" = "couchbase_bucket" ∧
    lower "COUCHBASE_PASSWORD" = "couchbase_password" ∧
    lower "COUCHBASE_DURABILITY" = "couchbase_durability" ∧
    lower "Couchbase_Host" = "couchbase_host" := by
  decide +kernel

theorem spells_staged :
    ∀ a ∈ staged.assigned, ∃ p : Property, spells p.variableName a.1 = true := by
  rw [assigned_staged]
  simp only [List.forall_mem_cons, List.not_mem_nil, spells_variableName, lower_staged]
  exact ⟨⟨.host, rfl⟩, ⟨.bucket, rfl⟩, ⟨.password, rfl⟩, ⟨.durability, rfl⟩, nofun⟩

def stagedText? : Property → Option String
  | .host => some "cb.internal"
  | .bucket => some "a bucket"
  | .password => some ""
  | _ => none

theorem stated?_staged (p : Property) :
    stated? [("Couchbase_Host", "cb.internal")] staged.assigned p = stagedText? p := by
  have hnames : (staged.assigned.map Prod.fst).eraseDups.reverse =
      ["COUCHBASE_DURABILITY", "COUCHBASE_PASSWORD", "COUCHBASE_BUCKET", "COUCHBASE_HOST"] := by
    rw [assigned_staged]
    decide +kernel
  simp only [stated?, text?, fileText?, decisive?, hnames, List.find?_cons, List.find?_nil,
    spells_variableName, lower_staged]
  cases p <;> rw [assigned_staged] <;> rfl

/-- The host of the environment and the bucket and the empty password of the file. -/
theorem load_properties_staged :
    staged.text =
      "# bench\nCOUCHBASE_HOST=elsewhere\nexport COUCHBASE_BUCKET = \"a bucket\" # a comment\r\n" ++
        "COUCHBASE_PASSWORD=\nCOUCHBASE_DURABILITY" ∧
    ([("Couchbase_Host", "cb.internal")].map fun v => lower v.1).Nodup ∧
    ∃ s, load [("Couchbase_Host", "cb.internal")] staged.text = .ok s ∧
      Holds s.properties stagedText? ∧
      Config.resolve s.properties = Config.resolve (.ofList [
        (Property.host.key, .text "cb.internal"), (Property.bucket.key, .text "a bucket"),
        (Property.password.key, .text "")]) := by
  have hnames : ([("Couchbase_Host", "cb.internal")].map fun v => lower v.1).Nodup :=
    List.pairwise_singleton _ _
  have hhost : spells Property.host.variableName "Couchbase_Host" = true := by
    rw [spells_variableName, lower_staged.2.2.2.2]
    rfl
  have henvironment : ∀ v ∈ [("Couchbase_Host", "cb.internal")],
      ∃ p : Property, spells p.variableName v.1 = true := by
    intro v hv
    rw [List.mem_singleton.mp hv]
    exact ⟨.host, hhost⟩
  obtain ⟨s, hs⟩ := exists_load hnames henvironment spells_staged
  obtain ⟨hholds, hresolve, -, -, hassigned⟩ := load_properties hnames hs
  rw [hassigned staged rfl, funext stated?_staged] at hholds hresolve
  refine ⟨by decide +kernel, hnames, s, hs, hholds, hresolve _ ?_⟩
  intro p
  cases p <;> exact ⟨rfl, rfl⟩

def respelled : VariableFile.Listing where
  lines := [
    (.simple "couchbase_durability" "0" (by decide +kernel), false),
    (.simple "COUCHBASE_DURABILITY" "1" (by decide +kernel), false),
    (.simple "couchbase_durability" "3" (by decide +kernel), false)]

theorem assigned_respelled : respelled.assigned =
    [("couchbase_durability", some "0"), ("COUCHBASE_DURABILITY", some "1"),
      ("couchbase_durability", some "3")] := by
  decide +kernel

theorem lower_respelled : lower "COUCHBASE_DURABILITY" = "couchbase_durability" ∧
    lower "couchbase_durability" = "couchbase_durability" := by
  decide +kernel

theorem stated?_respelled (p : Property) :
    stated? [] respelled.assigned p = if p = .durability then some "1" else none := by
  have hnames : (respelled.assigned.map Prod.fst).eraseDups.reverse =
      ["COUCHBASE_DURABILITY", "couchbase_durability"] := by
    rw [assigned_respelled]
    decide +kernel
  simp only [stated?, text?, List.find?_nil, fileText?, decisive?, hnames, List.find?_cons,
    spells_variableName, lower_respelled]
  cases p <;> rw [assigned_respelled] <;> rfl

theorem latest?_respelled (p : Property) :
    text? [] (latest? respelled.assigned) p = if p = .durability then some "3" else none := by
  simp only [text?, latest?, assigned_respelled, List.find?_nil, List.reverse_cons,
    List.reverse_nil, List.nil_append, List.cons_append, List.find?_cons, spells_variableName,
    lower_respelled]
  cases p <;> rfl

def leveled (level : String) : RawProperties := .ofList [(Property.durability.key, .text level)]

theorem holds_leveled (level : String) :
    Holds (leveled level) fun p => if p = .durability then some level else none := by
  intro p
  cases p <;> exact ⟨rfl, rfl⟩

theorem spells_respelled :
    ∀ a ∈ respelled.assigned, spells Property.durability.variableName a.1 = true := by
  rw [assigned_respelled]
  simp only [List.forall_mem_cons, List.not_mem_nil, spells_variableName, lower_respelled]
  exact ⟨rfl, rfl, rfl, nofun⟩

/-- The last assignment asks for persist-to-majority, and the settings for majority. -/
theorem not_latest_respelled :
    respelled.text =
      "couchbase_durability=0\nCOUCHBASE_DURABILITY=1\ncouchbase_durability=3\n" ∧
    ∃ s, load [] respelled.text = .ok s ∧
      Holds (leveled "3") (text? [] (latest? (VariableFile.assignments [] respelled.text))) ∧
      (Config.resolve (leveled "3")).map Config.durability = .ok (.level .persistToMajority) ∧
      (Config.resolve s.properties).map Config.durability = .ok (.level .majority) := by
  have hnames : (([] : List (String × String)).map fun v => lower v.1).Nodup := List.nodup_nil
  obtain ⟨s, hs⟩ := exists_load hnames nofun fun a ha => ⟨.durability, spells_respelled a ha⟩
  have hbinding : s.binding = fun p => if p = .durability then some "1" else none := by
    funext p
    rw [binding_of_load hnames hs, respelled.assignments_text, stated?_respelled]
  have hactual := resolve_of_holds (hbinding ▸ s.holds_properties) (holds_leveled "1")
  refine ⟨by decide +kernel, s, hs, ?_, ?_, ?_⟩
  · rw [respelled.assignments_text, funext latest?_respelled]
    exact holds_leveled "3"
  · decide +kernel
  · rw [hactual]
    decide +kernel

end Settings

end StoreBinding
