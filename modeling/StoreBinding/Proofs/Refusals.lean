import StoreBinding.Proofs.CountsKept

/-!
Which property a refusal names. Properties are validated in their order, each by the value that it
has in effect, and the first one that does not suit is named. Only properties that all suit are
looked at for their ranges: the level if there is one, and else the counts, the one for persisting
first. Main statement: properties resolve exactly when all suit and none is off its range, and every
refusal is a configuration error that names the property at fault by these rules.
-/
namespace StoreBinding

open Properties (value?)

def Value.IsText : Value → Prop
  | .text _ => True
  | .bytes b | .byteArray b => ∃ s : String, b = s.toUTF8
  | _ => False

def Property.Suits (v : Value) : Property → Prop
  | host | bucket | username | password => v.IsText
  | kvTimeoutMillis => ∃ n, v.Denotes n ∧ 0 < n
  | kvEndpoints => ∃ n, v.Denotes n ∧ 1 ≤ n
  | durability => v = .null ∨ ∃ n, v.Denotes n
  | persistTo | replicateTo => ∃ n, v.Denotes n

theorem Property.mem_all (p : Property) : p ∈ all := by
  cases p <;> decide

theorem Property.quoted_key (p : Property) : "\"couchbase." ++ p.name = "\"" ++ p.key := by
  have hquote : "\"couchbase." = "\"" ++ qualifier := rfl
  rw [hquote, String.append_assoc]
  rfl

theorem Value.Denotes.unique {v : Value} {n n' : Int} (h : v.Denotes n) (h' : v.Denotes n') :
    n = n' := by
  have hread := Value.readInt_eq_ok_iff.mpr h
  rw [Value.readInt_eq_ok_iff.mpr h'] at hread
  exact (Except.ok.inj hread).symm

theorem Value.isText_iff {v : Value} : v.IsText ↔ ∃ s, v.readText = .ok s := by
  cases v with
  | text s => exact ⟨fun _ => ⟨s, rfl⟩, fun _ => trivial⟩
  | bytes b | byteArray b =>
    simp only [IsText, readText, ← Text.Utf8.decode_eq_ok_iff]
    cases Text.Utf8.decode b <;> simp [Except.mapError]
  | _ => simp [IsText, readText]

namespace Properties

variable {given m : RawProperties} {p : Property}

/-- The value that a property has in effect. With a level of any value the counts have none. -/
def inEffect? (given : RawProperties) (p : Property) : Option Value :=
  if (value? given .durability).isSome ∧ p.IsCount then none else value? given p

def Suited (given : RawProperties) (p : Property) : Prop :=
  ∀ v, inEffect? given p = some v → p.Suits v

def FirstUnsuited (given : RawProperties) (p : Property) : Prop :=
  ∃ before after, Property.all = before ++ p :: after ∧ (∀ q ∈ before, Suited given q) ∧
    ¬ Suited given p

def probe (p : Property) (v : Value) : Except Problem Unit :=
  match p with
  | .host | .bucket | .username | .password => v.readText.map fun _ => ()
  | .kvTimeoutMillis => (readPositive v).map fun _ => ()
  | .kvEndpoints => (readAtLeastOne v).map fun _ => ()
  | .durability => (readLevel v).map fun _ => ()
  | .persistTo | .replicateTo => v.readInt.map fun _ => ()

theorem map_eq_ok_iff {ε α : Type} {x : Except ε α} :
    (x.map fun _ => ()) = .ok () ↔ ∃ v, x = .ok v := by
  cases x with
  | error e => simp [Except.map]
  | ok v => simp [Except.map]

theorem readPositive_eq_ok_iff {v : Value} {n : Int} :
    readPositive v = .ok n ↔ v.Denotes n ∧ 0 < n := by
  rw [← Value.readInt_eq_ok_iff, readPositive]
  cases v.readInt with
  | error e => simp
  | ok k =>
    by_cases hk : k ≤ 0
    · simp only [hk, if_true, Except.ok.injEq, reduceCtorEq, false_iff]
      omega
    · simp only [hk, if_false, Except.ok.injEq]
      omega

theorem readAtLeastOne_eq_ok_iff {v : Value} {n : Int} :
    readAtLeastOne v = .ok n ↔ v.Denotes n ∧ 1 ≤ n := by
  rw [← Value.readInt_eq_ok_iff, readAtLeastOne]
  cases v.readInt with
  | error e => simp
  | ok k =>
    by_cases hk : k < 1
    · simp only [hk, if_true, Except.ok.injEq, reduceCtorEq, false_iff]
      omega
    · simp only [hk, if_false, Except.ok.injEq]
      omega

theorem probe_eq_ok_iff {v : Value} : probe p v = .ok () ↔ p.Suits v := by
  cases p with
  | host | bucket | username | password => exact map_eq_ok_iff.trans Value.isText_iff.symm
  | kvTimeoutMillis =>
    exact map_eq_ok_iff.trans (exists_congr fun n => readPositive_eq_ok_iff)
  | kvEndpoints =>
    exact map_eq_ok_iff.trans (exists_congr fun n => readAtLeastOne_eq_ok_iff)
  | durability =>
    rw [probe, map_eq_ok_iff, Property.Suits]
    simp only [readLevel_eq_ok_iff]
    constructor
    · rintro ⟨level, ⟨hv, -⟩ | ⟨n, hn, -⟩⟩
      · exact Or.inl hv
      · exact Or.inr ⟨n, hn⟩
    · rintro (hv | ⟨n, hn⟩)
      · exact ⟨none, Or.inl ⟨hv, rfl⟩⟩
      · exact ⟨some n, Or.inr ⟨n, hn, rfl⟩⟩
  | persistTo | replicateTo =>
    exact map_eq_ok_iff.trans (exists_congr fun n => Value.readInt_eq_ok_iff)

theorem problem_map {α β : Type} (x : Except Invalid α) (f : α → β) :
    problem (x.map f) = problem x := by
  cases x <;> rfl

/-- Whether a property is refused does not depend on what is made of its value. -/
theorem map_field {α β : Type} (default : α) (reader : Value → Except Problem α) (f : α → β) :
    (field m p default reader).map f = field m p (f default) fun v => (reader v).map f := by
  unfold field
  cases effective? m p with
  | none => rfl
  | some found =>
    obtain ⟨spelling, v⟩ := found
    cases h : reader v <;> simp only [h] <;> rfl

theorem problem_field {α : Type} (default : α) (reader : Value → Except Problem α) :
    problem (field m p default reader) =
      problem (field m p () fun v => (reader v).map fun _ => ()) := by
  rw [← map_field default reader fun _ => (), problem_map]

/-- What is wrong with a mapping, property by property. -/
theorem problems_eq (given : RawProperties) :
    problems given =
      Property.all.flatMap fun p => problem (field (inForce given) p () (probe p)) := by
  simp only [problems, host?, bucket?, username?, password?, kvTimeoutMillis?, kvEndpoints?,
    durability?, persistTo?, replicateTo?, Property.all, List.flatMap_cons, List.flatMap_nil,
    List.append_nil, List.append_assoc]
  simp only [problem_field (α := String), problem_field (α := Int), problem_field (α := Option Int)]
  rfl

theorem field_eq_error_iff {α : Type} {default : α} {reader : Value → Except Problem α}
    {e : Invalid} :
    field m p default reader = .error e ↔
      ∃ spelling v problem, effective? m p = some (spelling, v) ∧ reader v = .error problem ∧
        e = ⟨p, spelling, problem⟩ := by
  unfold field
  cases effective? m p with
  | none => simp
  | some found =>
    obtain ⟨spelling, v⟩ := found
    cases hv : reader v with
    | error problem =>
      simp [Except.mapError, hv, eq_comm]
    | ok x => simp [Except.mapError, hv]

/-- A property is refused exactly when it has an unsuited value in effect. -/
theorem problem_eq_nil_iff :
    problem (field (inForce given) p () (probe p)) = [] ↔ Suited given p := by
  have hforce : value? (inForce given) p = inEffect? given p := value?_inForce
  have hfield : field (inForce given) p () (probe p) = .ok () ↔ _ := field_eq_ok_iff
  rw [← value?, hforce] at hfield
  have hnil : problem (field (inForce given) p () (probe p)) = [] ↔
      field (inForce given) p () (probe p) = .ok () := by
    cases field (inForce given) p () (probe p) <;> simp [problem]
  rw [hnil, hfield, Suited]
  cases inEffect? given p with
  | none => simp
  | some v => simp [probe_eq_ok_iff]

theorem property_of_mem_problem {e : Invalid}
    (h : e ∈ problem (field (inForce given) p () (probe p))) : e.property = p := by
  cases hfield : field (inForce given) p () (probe p) with
  | ok u =>
    rw [hfield] at h
    cases h
  | error e' =>
    rw [hfield] at h
    obtain rfl := List.mem_singleton.mp h
    obtain ⟨spelling, v, problem, -, -, rfl⟩ := field_eq_error_iff.mp hfield
    rfl

/-- A mapping is read exactly when all that is in effect in it suits. -/
theorem exists_read_iff : (∃ p, read given = .ok p) ↔ ∀ q, Suited given q := by
  rw [← problems_eq_nil_iff, problems_eq, List.flatMap_eq_nil_iff]
  simp only [problem_eq_nil_iff]
  exact ⟨fun h q => h q q.mem_all, fun h q _ => h q⟩

/-- A refusal is about the first unsuited property. -/
theorem firstUnsuited_of_read {e : Invalid} (h : read given = .error e) :
    FirstUnsuited given e.property := by
  have hhead := head?_problems_of_read h
  rw [problems_eq, List.head?_flatMap] at hhead
  obtain ⟨before, p, after, hall, hfirst, hbefore⟩ := List.findSome?_eq_some_iff.mp hhead
  obtain rfl : e.property = p := property_of_mem_problem (List.mem_of_head? hfirst)
  refine ⟨before, after, hall, fun q hq => ?_, fun hsuited => ?_⟩
  · exact problem_eq_nil_iff.mp (List.head?_eq_none_iff.mp (hbefore q hq))
  · rw [problem_eq_nil_iff.mpr hsuited] at hfirst
    cases hfirst

def Numbers (given : RawProperties) (p : Property) (n : Int) : Prop :=
  ∃ v, inEffect? given p = some v ∧ v.Denotes n

theorem inEffect?_durability (given : RawProperties) :
    inEffect? given .durability = value? given .durability :=
  if_neg fun h => absurd h.2 (by decide)

/-- The level that is read is the number of the level in effect. -/
theorem durability?_eq_some_iff {level : Option Int}
    (h : durability? (inForce given) = .ok level) {n : Int} :
    level = some n ↔ Numbers given .durability n := by
  have hread := durability?_inForce_iff.mp h
  rw [Numbers, inEffect?_durability]
  cases hvalue : value? given .durability with
  | none =>
    rw [hvalue] at hread
    simp [hread]
  | some v =>
    rw [hvalue] at hread
    rcases readLevel_eq_ok_iff.mp hread with ⟨rfl, rfl⟩ | ⟨k, hk, rfl⟩
    · simp [Value.Denotes]
    · simp only [Option.some.injEq, exists_eq_left']
      constructor
      · rintro rfl
        exact hk
      · exact hk.unique

/-- A count that is read is the number in effect, or zero where there is none. -/
theorem count_cases {k : Int} (h : field (inForce given) p 0 Value.readInt = .ok k) :
    Numbers given p k ∨ (k = 0 ∧ ∀ n, ¬ Numbers given p n) := by
  have hforce : value? (inForce given) p = inEffect? given p := value?_inForce
  rw [field_eq_ok_iff, ← value?, hforce] at h
  cases hvalue : inEffect? given p with
  | none =>
    rw [hvalue] at h
    refine Or.inr ⟨h, ?_⟩
    rintro n ⟨v, hv, -⟩
    rw [hvalue] at hv
    cases hv
  | some v =>
    rw [hvalue] at h
    exact Or.inl ⟨v, hvalue, Value.readInt_eq_ok_iff.mp h⟩

theorem Numbers.unique {n n' : Int} (h : Numbers given p n) (h' : Numbers given p n') :
    n = n' := by
  obtain ⟨v, hv, hn⟩ := h
  obtain ⟨v', hv', hn'⟩ := h'
  rw [hv] at hv'
  cases hv'
  exact hn.unique hn'

/-- A count that is off a range with zero in it is a number in effect. -/
theorem off_range_iff {k : Int} (h : field (inForce given) p 0 Value.readInt = .ok k)
    (upper : Nat) :
    ¬ (0 ≤ k ∧ k ≤ upper) ↔ ∃ n, Numbers given p n ∧ ¬ (0 ≤ n ∧ n ≤ upper) := by
  rcases count_cases h with hk | ⟨rfl, hnone⟩
  · constructor
    · exact fun hoff => ⟨k, hk, hoff⟩
    · rintro ⟨n, hn, hoff⟩
      rwa [hk.unique hn]
  · constructor
    · intro hoff
      omega
    · rintro ⟨n, hn, -⟩
      exact absurd hn (hnone n)

/-- With a level of any value no count is in effect. -/
theorem not_isCount_of_inEffect {v : Value} (hlevel : (value? given .durability).isSome)
    (h : inEffect? given p = some v) : ¬ p.IsCount := by
  intro hp
  rw [inEffect?, if_pos ⟨hlevel, hp⟩] at h
  cases h

theorem Numbers.not_isCount {n : Int} (hlevel : (value? given .durability).isSome)
    (h : Numbers given p n) : ¬ p.IsCount := by
  obtain ⟨v, hv, -⟩ := h
  exact not_isCount_of_inEffect hlevel hv

theorem isSome_of_numbers {n : Int} (h : Numbers given .durability n) :
    (value? given .durability).isSome := by
  obtain ⟨v, hv, -⟩ := h
  rw [← inEffect?_durability, hv]
  rfl

end Properties

namespace Config

open Properties (inEffect? Suited FirstUnsuited Numbers)

variable {given : RawProperties}

/-- A property has a number in effect that is off its range, which runs from zero to a bound. Of the
counts the one for persisting is looked at first. -/
inductive OffRange (given : RawProperties) : Property → Nat → Prop
  | level {n : Int} (number : Numbers given .durability n) (off : ¬ (0 ≤ n ∧ n ≤ 3)) :
      OffRange given .durability 3
  | persistTo {n : Int} (number : Numbers given .persistTo n) (off : ¬ (0 ≤ n ∧ n ≤ 4)) :
      OffRange given .persistTo 4
  | replicateTo {n : Int} (persist : ∀ k, Numbers given .persistTo k → 0 ≤ k ∧ k ≤ 4)
      (number : Numbers given .replicateTo n) (off : ¬ (0 ≤ n ∧ n ≤ 3)) :
      OffRange given .replicateTo 3

section

variable {p : Properties} (hreads : Properties.Reads (Properties.inForce given) p)
  {e : Durability.Refusal}

include hreads

theorem offRange_iff_of_level {n : Int} (hlevel : p.durability = some n) :
    Durability.resolve (some n) p.persistTo p.replicateTo = .error e ↔
      ∃ q upper, OffRange given q upper ∧ e = .outOfRange ⟨q, upper⟩ := by
  have hn : Numbers given .durability n :=
    (Properties.durability?_eq_some_iff hreads.durability).mp hlevel
  rw [Durability.resolve_some_eq_error_iff]
  constructor
  · rintro ⟨hoff, rfl⟩
    exact ⟨_, _, .level hn hoff, rfl⟩
  · rintro ⟨q, upper, hoff, rfl⟩
    cases hoff with
    | level hk hoff =>
      rw [hn.unique hk]
      exact ⟨hoff, rfl⟩
    | persistTo hk _ =>
      exact absurd (Or.inl rfl) (hk.not_isCount (Properties.isSome_of_numbers hn))
    | replicateTo _ hk _ =>
      exact absurd (Or.inr rfl) (hk.not_isCount (Properties.isSome_of_numbers hn))

theorem offRange_iff_of_counts (hlevel : p.durability = none) :
    Durability.resolve none p.persistTo p.replicateTo = .error e ↔
      ∃ q upper, OffRange given q upper ∧ e = .outOfRange ⟨q, upper⟩ := by
  have hpersist := Properties.off_range_iff hreads.persistTo 4
  have hreplicate := Properties.off_range_iff hreads.replicateTo 3
  rw [Durability.resolve_none_eq_error_iff]
  constructor
  · rintro (⟨hoff, rfl⟩ | ⟨hfine, hoff, rfl⟩)
    · obtain ⟨n, hn, hoff⟩ := hpersist.mp hoff
      exact ⟨_, _, .persistTo hn hoff, rfl⟩
    · obtain ⟨n, hn, hoff⟩ := hreplicate.mp hoff
      refine ⟨_, _, .replicateTo (fun k hk => ?_) hn hoff, rfl⟩
      by_contra hk'
      exact hpersist.mpr ⟨k, hk, hk'⟩ hfine
  · rintro ⟨q, upper, hoff, rfl⟩
    cases hoff with
    | level hk _ =>
      rw [(Properties.durability?_eq_some_iff hreads.durability).mpr hk] at hlevel
      cases hlevel
    | persistTo hk hoff => exact Or.inl ⟨hpersist.mpr ⟨_, hk, hoff⟩, rfl⟩
    | replicateTo hfine hk hoff =>
      refine Or.inr ⟨?_, hreplicate.mpr ⟨_, hk, hoff⟩, rfl⟩
      by_contra hpoff
      obtain ⟨k, hk, hoff⟩ := hpersist.mp hpoff
      exact hoff (hfine k hk)

/-- Numbers that were read make no policy exactly when one of them is off its range. -/
theorem offRange_iff :
    Durability.resolve p.durability p.persistTo p.replicateTo = .error e ↔
      ∃ q upper, OffRange given q upper ∧ e = .outOfRange ⟨q, upper⟩ := by
  cases hlevel : p.durability with
  | some n => exact offRange_iff_of_level hreads hlevel
  | none => exact offRange_iff_of_counts hreads hlevel

end

structure Names (e : Error) (p : Property) : Prop where
  kind : (Failure.config e).name = "ConfigurationError"
  key : (Failure.config e).key? = some p
  message : ∃ rest, (Failure.config e).message = "\"couchbase." ++ p.name ++ "\" " ++ rest

/-- What a refusal can be: the first unsuited property has failed its validation, or all suit and
one is off its range, of which the bounds are told. -/
inductive Blamed (given : RawProperties) (p : Property) (e : Error) : Prop
  | unsuited (first : FirstUnsuited given p)
      (cause : (Failure.config e).causeName? = some "ValidationError") : Blamed given p e
  | offRange {upper : Nat} (suited : ∀ q, Suited given q) (off : OffRange given p upper)
      (cause : (Failure.config e).causeName? = none)
      (bounds : (Failure.config e).message =
        s!"\"couchbase.{p.name}\" must be between 0 and {upper}") : Blamed given p e

theorem names_invalid (e : Invalid) : Names (.invalid e) e.property where
  kind := rfl
  key := rfl
  message := by
    refine ⟨e.problem.message.toLower, ?_⟩
    rw [Property.quoted_key]
    rfl

theorem message_outOfRange (p : Property) (upper : Nat) :
    (Failure.config (.refused (.outOfRange ⟨p, upper⟩))).message =
      s!"\"couchbase.{p.name}\" must be between 0 and {upper}" := by
  show s!"\"{p.key}\" must be between 0 and {upper}" = "\"couchbase." ++ p.name ++ _ ++ _
  rw [Property.quoted_key]
  rfl

theorem names_outOfRange (p : Property) (upper : Nat) :
    Names (.refused (.outOfRange ⟨p, upper⟩)) p where
  kind := rfl
  key := rfl
  message := by
    have hbounds : "\" must be between 0 and " = "\" " ++ "must be between 0 and " := rfl
    refine ⟨"must be between 0 and " ++ toString upper, ?_⟩
    calc
      _ = "\"couchbase." ++ p.name ++ "\" must be between 0 and " ++ toString upper :=
        message_outOfRange p upper
      _ = _ := by rw [hbounds]; simp only [String.append_assoc]

/-- The property that is blamed has a value in effect. -/
theorem Blamed.not_isCount {e : Error} {p : Property} (h : Blamed given p e)
    (hlevel : (value? given .durability).isSome) : ¬ p.IsCount := by
  cases h with
  | unsuited first cause =>
    obtain ⟨-, -, -, -, hunsuited⟩ := first
    intro hp
    refine hunsuited fun v hv => ?_
    exact absurd hp (Properties.not_isCount_of_inEffect hlevel hv)
  | offRange suited off cause bounds =>
    cases off with
    | level hn _ | persistTo hn _ | replicateTo _ hn _ => exact hn.not_isCount hlevel

theorem blamed_of_resolve {e : Error} (h : resolve given = .error e) :
    ∃ p, Names e p ∧ Blamed given p e := by
  unfold resolve at h
  split at h
  · next i hi =>
    cases h
    exact ⟨i.property, names_invalid i, .unsuited (Properties.firstUnsuited_of_read hi) rfl⟩
  · next p hp =>
    have hsuited := Properties.exists_read_iff.mp ⟨p, hp⟩
    unfold ofProperties at h
    split at h
    · next r hr =>
      cases h
      obtain ⟨q, upper, hoff, rfl⟩ := (offRange_iff (Properties.read_eq_ok_iff.mp hp)).mp hr
      exact ⟨q, names_outOfRange q upper,
        .offRange hsuited hoff rfl (message_outOfRange q upper)⟩
    · cases h

theorem exists_resolve_iff :
    (∃ c, resolve given = .ok c) ↔
      (∀ q, Suited given q) ∧ ∀ q upper, ¬ OffRange given q upper := by
  rw [← Properties.exists_read_iff]
  constructor
  · rintro ⟨c, hc⟩
    obtain ⟨p, hreads, hp⟩ := resolve_eq_ok_iff.mp hc
    obtain ⟨policy, hpolicy, -⟩ := ofProperties_eq_ok_iff.mp hp
    refine ⟨⟨p, Properties.read_eq_ok_iff.mpr hreads⟩, fun q upper hoff => ?_⟩
    rw [(offRange_iff hreads).mpr ⟨q, upper, hoff, rfl⟩] at hpolicy
    cases hpolicy
  · rintro ⟨⟨p, hp⟩, hnone⟩
    have hreads := Properties.read_eq_ok_iff.mp hp
    cases hpolicy : Durability.resolve p.durability p.persistTo p.replicateTo with
    | ok policy =>
      have hok := ofProperties_eq_ok_iff.mpr ⟨policy, hpolicy, rfl⟩
      exact ⟨_, resolve_eq_ok_iff.mpr ⟨p, hreads, hok⟩⟩
    | error r =>
      obtain ⟨q, upper, hoff, -⟩ := (offRange_iff hreads).mp hpolicy
      exact absurd hoff (hnone q upper)

/-- Properties resolve exactly when all values in effect suit and no number is off its range. Every
refusal names a property, and it is the first unsuited one; only if all suit is it the one that is
off its range. With a level of any value it is none of the counts. -/
theorem refusals_name (given : RawProperties) :
    ((∃ c, resolve given = .ok c) ↔
      (∀ q, Suited given q) ∧ ∀ q upper, ¬ OffRange given q upper) ∧
    ∀ e, resolve given = .error e →
      ∃ p, Names e p ∧ Blamed given p e ∧ ((value? given .durability).isSome → ¬ p.IsCount) := by
  refine ⟨exists_resolve_iff, fun e he => ?_⟩
  obtain ⟨p, hnames, hblamed⟩ := blamed_of_resolve he
  exact ⟨p, hnames, hblamed, hblamed.not_isCount⟩

def miscounted : RawProperties :=
  .ofList [("persistTo", .int 9), ("replicateTo", .int 1), ("couchbase.replicateTo", .text "two")]

def overcounted : RawProperties := .ofList [("replicateTo", .text "8"), ("persistTo", .int 9)]

/-- A count that is no numeral is named before one that is off its range, and of two that are off
their ranges the one for persisting. -/
theorem refusals_name_counts :
    (∃ e, resolve miscounted = .error e ∧ Names e .replicateTo ∧ Blamed miscounted .replicateTo e) ∧
    ∃ e, resolve overcounted = .error e ∧ Names e .persistTo ∧ Blamed overcounted .persistTo e := by
  have hmis : resolve miscounted =
      .error (.invalid ⟨.replicateTo, "couchbase.replicateTo", .unreadable .notAnInteger⟩) := by
    decide +kernel
  have hover : resolve overcounted = .error (.refused (.outOfRange ⟨.persistTo, 4⟩)) := by
    decide +kernel
  obtain ⟨p, hnames, hblamed, -⟩ := (refusals_name miscounted).2 _ hmis
  obtain ⟨q, hnames', hblamed', -⟩ := (refusals_name overcounted).2 _ hover
  cases hnames.key
  cases hnames'.key
  exact ⟨⟨_, hmis, hnames, hblamed⟩, ⟨_, hover, hnames', hblamed'⟩⟩

end Config

end StoreBinding
