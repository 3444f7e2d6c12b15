import StoreBinding.Proofs.Document
import StoreBinding.Proofs.Grammar
import StoreBinding.Proofs.Policies
import StoreBinding.Proofs.Spelling

/-!
Which texts make a configuration. A property that is given as text has the text of its qualified
spelling, or else that of its bare name, and may have none. Main statement: properties resolve
exactly when their numbers are numerals in range, where a level puts the counts out of force; the
configuration has the given texts and numbers with defaults for the others, and nothing else about
the properties matters to the result.
-/
namespace StoreBinding

namespace Properties

/-- A property reads as its default where it has no value, and else as its reader says. -/
theorem field_eq_ok_iff {α : Type} {m : RawProperties} {p : Property} {default v : α}
    {reader : Value → Except Problem α} :
    field m p default reader = .ok v ↔
      match (effective? m p).map Prod.snd with
      | none => v = default
      | some raw => reader raw = .ok v := by
  unfold field
  cases effective? m p with
  | none =>
    simp only [Except.ok.injEq, Option.map_none]
    exact eq_comm
  | some found =>
    obtain ⟨spelling, raw⟩ := found
    cases h : reader raw with
    | error e => simp [Except.mapError, h]
    | ok w => simp [Except.mapError, h]

theorem readInt_text_iff {s : String} {n : Int} :
    Value.readInt (.text s) = .ok n ↔ Numeral.Denotes s n := by
  rw [← Numeral.read_eq_ok_iff, Value.readInt]
  cases Numeral.read s <;> simp [Except.mapError]

theorem readPositive_text_iff {s : String} {n : Int} :
    readPositive (.text s) = .ok n ↔ Numeral.Denotes s n ∧ 0 < n := by
  rw [← readInt_text_iff, readPositive]
  cases Value.readInt (.text s) with
  | error e => simp
  | ok v =>
    by_cases hv : v ≤ 0
    · simp only [hv, if_true, Except.ok.injEq, reduceCtorEq, false_iff]
      omega
    · simp only [hv, if_false, Except.ok.injEq]
      omega

theorem readAtLeastOne_text_iff {s : String} {n : Int} :
    readAtLeastOne (.text s) = .ok n ↔ Numeral.Denotes s n ∧ 1 ≤ n := by
  rw [← readInt_text_iff, readAtLeastOne]
  cases Value.readInt (.text s) with
  | error e => simp
  | ok v =>
    by_cases hv : v < 1
    · simp only [hv, if_true, Except.ok.injEq, reduceCtorEq, false_iff]
      omega
    · simp only [hv, if_false, Except.ok.injEq]
      omega

theorem readLevel_text_iff {s : String} {level : Option Int} :
    readLevel (.text s) = .ok level ↔ ∃ n, level = some n ∧ Numeral.Denotes s n := by
  have hread : readLevel (.text s) = (Value.readInt (.text s)).map some := rfl
  simp only [hread, ← readInt_text_iff]
  cases Value.readInt (.text s) with
  | error e => simp [Except.map]
  | ok v =>
    simp only [Except.map, Except.ok.injEq]
    constructor
    · rintro rfl
      exact ⟨v, rfl, rfl⟩
    · rintro ⟨n, rfl, rfl⟩
      rfl

end Properties

namespace Config

theorem ofProperties_eq_ok_iff {p : Properties} {c : Config} :
    ofProperties p = .ok c ↔
      ∃ policy, Durability.resolve p.durability p.persistTo p.replicateTo = .ok policy ∧
        c = ⟨policy, p.kvTimeoutMillis, p.params⟩ := by
  unfold ofProperties
  cases Durability.resolve p.durability p.persistTo p.replicateTo with
  | error e => simp
  | ok policy =>
    simp only [Except.ok.injEq, exists_eq_left']
    exact eq_comm

theorem resolve_eq_ok_iff {given : RawProperties} {c : Config} :
    resolve given = .ok c ↔
      ∃ p, Properties.Reads (Properties.inForce given) p ∧ ofProperties p = .ok c := by
  simp only [← Properties.read_eq_ok_iff]
  unfold resolve
  cases Properties.read given <;> simp

end Config

abbrev TextProperties := OrderedMap String String

namespace TextProperties

def raw (m : TextProperties) : RawProperties := Fields.content m

def text? (m : TextProperties) (p : Property) : Option String := (m.get? p.key).or (m.get? p.name)

def Has (m : TextProperties) (p : Property) (default n : Int) : Prop :=
  match m.text? p with
  | none => n = default
  | some s => Numeral.Denotes s n

def Fits (m : TextProperties) (p : Property) (fine : Int → Prop) : Prop :=
  ∀ s, m.text? p = some s → ∃ n, Numeral.Denotes s n ∧ fine n

structure Acceptable (m : TextProperties) : Prop where
  timeout : m.Fits .kvTimeoutMillis fun n => 0 < n
  endpoints : m.Fits .kvEndpoints fun n => 1 ≤ n
  level : m.Fits .durability fun n => 0 ≤ n ∧ n ≤ 3
  persistTo : m.text? .durability = none → m.Fits .persistTo fun n => 0 ≤ n ∧ n ≤ 4
  replicateTo : m.text? .durability = none → m.Fits .replicateTo fun n => 0 ≤ n ∧ n ≤ 3

def params (m : TextProperties) (kvTimeoutMillis kvEndpoints : Int) : Params where
  host := (m.text? .host).getD "127.0.0.1"
  bucket := (m.text? .bucket).getD "ycsb"
  username := (m.text? .username).getD "Administrator"
  password := (m.text? .password).getD "password"
  kvTimeoutMillis := kvTimeoutMillis
  kvEndpoints := kvEndpoints
  enableMutationTokens := true

structure Describes (m : TextProperties) (c : Config) : Prop where
  level : ∀ s, m.text? .durability = some s →
    ∃ l : Level, c.durability = .level l ∧ Numeral.Denotes s l.number
  counts : m.text? .durability = none →
    ∃ (persistTo : Fin 5) (replicateTo : Fin 4), c.durability = .counts persistTo replicateTo ∧
      m.Has .persistTo 0 persistTo.val ∧ m.Has .replicateTo 0 replicateTo.val
  timeout : m.Has .kvTimeoutMillis 10000 c.kvTimeoutMillis
  timeout_pos : 0 < c.kvTimeoutMillis
  endpoints : m.Has .kvEndpoints 1 c.connection.kvEndpoints
  one_le_endpoints : 1 ≤ c.connection.kvEndpoints
  connection : c.connection = m.params c.kvTimeoutMillis c.connection.kvEndpoints

/-- Keys whose texts do not matter: those of no property, a bare name behind its qualified
spelling, and the counts where there is a level. -/
inductive Ignored (m : TextProperties) : String → Prop
  | unrelated {k : String} (h : ∀ p : Property, k ≠ p.key ∧ k ≠ p.name) : Ignored m k
  | shadowed (p : Property) (h : m.contains p.key) : Ignored m p.name
  | dropped {k : String} {p : Property} (level : (m.text? .durability).isSome)
      (count : p = .persistTo ∨ p = .replicateTo) (h : k = p.key ∨ k = p.name) : Ignored m k

variable {m m' : TextProperties} {p : Property}

/-- A number that is fine by default is found in the text of its property or by default. -/
theorem fits_iff {fine : Int → Prop} (default : Int) (hdefault : fine default) :
    m.Fits p fine ↔ ∃ n, m.Has p default n ∧ fine n := by
  unfold Fits Has
  cases m.text? p with
  | none => exact ⟨fun _ => ⟨default, rfl, hdefault⟩, fun _ => nofun⟩
  | some s =>
    constructor
    · exact fun h => h s rfl
    · rintro h s' hs'
      cases hs'
      exact h

theorem effective?_raw (m : TextProperties) (p : Property) :
    Properties.effective? m.raw p =
      match m.get? p.key with
      | some s => some (p.key, .text s)
      | none => (m.get? p.name).map fun s => (p.name, .text s) := by
  simp only [Properties.effective?, raw, Fields.get?_content]
  cases m.get? p.key with
  | some s => rfl
  | none => cases m.get? p.name <;> rfl

theorem map_effective?_raw (m : TextProperties) (p : Property) :
    (Properties.effective? m.raw p).map Prod.snd = (m.text? p).map Value.text := by
  rw [effective?_raw, text?]
  cases m.get? p.key with
  | some s => rfl
  | none => cases m.get? p.name <;> rfl

theorem isSome_effective?_raw (m : TextProperties) (p : Property) :
    (Properties.effective? m.raw p).isSome = (m.text? p).isSome := by
  have h := congrArg Option.isSome (map_effective?_raw m p)
  rwa [Option.isSome_map, Option.isSome_map] at h

def inForce? (m : TextProperties) (p : Property) : Option String :=
  if (m.text? .durability).isSome ∧ p.IsCount then none else m.text? p

theorem inForce?_of_not_isCount (h : ¬ p.IsCount) : m.inForce? p = m.text? p :=
  if_neg fun hc => h hc.2

theorem inForce?_of_none (h : m.text? .durability = none) (p : Property) :
    m.inForce? p = m.text? p :=
  if_neg fun hc => by
    rw [h] at hc
    exact absurd hc.1 (by decide)

theorem field_inForce_iff {α : Type} {default v : α} {reader : Value → Except Problem α} :
    Properties.field (Properties.inForce m.raw) p default reader = .ok v ↔
      match m.inForce? p with
      | none => v = default
      | some s => reader (.text s) = .ok v := by
  have hforce : (Properties.effective? (Properties.inForce m.raw) p).map Prod.snd =
      (m.inForce? p).map Value.text := by
    rw [Properties.effective?_inForce, isSome_effective?_raw, inForce?]
    split
    · rfl
    · exact map_effective?_raw m p
  rw [Properties.field_eq_ok_iff, hforce]
  cases m.inForce? p <;> rfl

/-- A text property is its text or its default. -/
theorem field_text_iff {default v : String} (h : ¬ p.IsCount) :
    Properties.field (Properties.inForce m.raw) p default Value.readText = .ok v ↔
      v = (m.text? p).getD default := by
  rw [field_inForce_iff, inForce?_of_not_isCount h]
  cases m.text? p with
  | none => rfl
  | some s =>
    simp only [Value.readText, Except.ok.injEq, Option.getD_some]
    exact eq_comm

theorem kvTimeoutMillis?_iff {n : Int} :
    Properties.kvTimeoutMillis? (Properties.inForce m.raw) = .ok n ↔
      m.Has .kvTimeoutMillis 10000 n ∧ 0 < n := by
  rw [Properties.kvTimeoutMillis?, field_inForce_iff, inForce?_of_not_isCount (by decide), Has]
  cases m.text? .kvTimeoutMillis with
  | none =>
    refine ⟨fun h => ⟨h, ?_⟩, And.left⟩
    rw [h]
    decide
  | some s => exact Properties.readPositive_text_iff

theorem kvEndpoints?_iff {n : Int} :
    Properties.kvEndpoints? (Properties.inForce m.raw) = .ok n ↔
      m.Has .kvEndpoints 1 n ∧ 1 ≤ n := by
  rw [Properties.kvEndpoints?, field_inForce_iff, inForce?_of_not_isCount (by decide), Has]
  cases m.text? .kvEndpoints with
  | none => exact ⟨fun h => ⟨h, Int.le_of_eq h.symm⟩, And.left⟩
  | some s => exact Properties.readAtLeastOne_text_iff

theorem durability?_iff {level : Option Int} :
    Properties.durability? (Properties.inForce m.raw) = .ok level ↔
      match m.text? .durability with
      | none => level = none
      | some s => ∃ n, level = some n ∧ Numeral.Denotes s n := by
  rw [Properties.durability?, field_inForce_iff, inForce?_of_not_isCount (by decide)]
  cases m.text? .durability with
  | none => rfl
  | some s => exact Properties.readLevel_text_iff

/-- Without a level a count has its number. -/
theorem field_count_iff (hlevel : m.text? .durability = none) {n : Int} :
    Properties.field (Properties.inForce m.raw) p 0 Value.readInt = .ok n ↔ m.Has p 0 n := by
  rw [field_inForce_iff, inForce?_of_none hlevel, Has]
  cases m.text? p with
  | none => rfl
  | some s => exact Properties.readInt_text_iff

/-- With a level a count is zero. -/
theorem field_count_of_level {s : String} (hlevel : m.text? .durability = some s)
    (hp : p.IsCount) {n : Int} :
    Properties.field (Properties.inForce m.raw) p 0 Value.readInt = .ok n ↔ n = 0 := by
  have hnone : m.inForce? p = none := if_pos ⟨by rw [hlevel]; rfl, hp⟩
  rw [field_inForce_iff, hnone]

theorem describes_of_resolve {c : Config} (h : Config.resolve m.raw = .ok c) : m.Describes c := by
  obtain ⟨p, hreads, hp⟩ := Config.resolve_eq_ok_iff.mp h
  obtain ⟨policy, hpolicy, rfl⟩ := Config.ofProperties_eq_ok_iff.mp hp
  have hlevel := durability?_iff.mp hreads.durability
  obtain ⟨htimeout, hpos⟩ := kvTimeoutMillis?_iff.mp hreads.kvTimeoutMillis
  obtain ⟨hendpoints, hone⟩ := kvEndpoints?_iff.mp hreads.kvEndpoints
  refine ⟨?_, ?_, htimeout, hpos, hendpoints, hone, ?_⟩
  · intro s hs
    rw [hs] at hlevel
    obtain ⟨n, hn, hdenotes⟩ := hlevel
    rw [hn] at hpolicy
    obtain ⟨l, rfl, rfl⟩ := Durability.resolve_some_eq_ok_iff.mp hpolicy
    exact ⟨l, rfl, hdenotes⟩
  · intro hnone
    rw [hnone] at hlevel
    rw [hlevel] at hpolicy
    obtain ⟨persistTo, replicateTo, rfl, hpersist, hreplicate⟩ :=
      Durability.resolve_none_eq_ok_iff.mp hpolicy
    refine ⟨persistTo, replicateTo, rfl, ?_, ?_⟩
    · rw [hpersist]
      exact (field_count_iff hnone).mp hreads.persistTo
    · rw [hreplicate]
      exact (field_count_iff hnone).mp hreads.replicateTo
  · rw [Properties.params, (field_text_iff (by decide)).mp hreads.host,
      (field_text_iff (by decide)).mp hreads.bucket,
      (field_text_iff (by decide)).mp hreads.username,
      (field_text_iff (by decide)).mp hreads.password]
    rfl

def origin (c : Config) (level : Option Int) (persistTo replicateTo : Int) : Properties where
  host := c.connection.host
  bucket := c.connection.bucket
  username := c.connection.username
  password := c.connection.password
  kvTimeoutMillis := c.kvTimeoutMillis
  kvEndpoints := c.connection.kvEndpoints
  durability := level
  persistTo := persistTo
  replicateTo := replicateTo

theorem Describes.params_origin {c : Config} (h : m.Describes c) (level : Option Int)
    (persistTo replicateTo : Int) :
    (origin c level persistTo replicateTo).params = c.connection := by
  have hmillis := congrArg Params.kvTimeoutMillis h.connection
  have htokens := congrArg Params.enableMutationTokens h.connection
  obtain ⟨durability, millis, connection⟩ := c
  cases connection
  cases hmillis
  cases htokens
  rfl

/-- A described configuration resolves, once its level and its counts are found in force. -/
theorem Describes.resolve {c : Config} (h : m.Describes c) {level : Option Int}
    {persistTo replicateTo : Int}
    (hlevel : Properties.durability? (Properties.inForce m.raw) = .ok level)
    (hpersist : Properties.persistTo? (Properties.inForce m.raw) = .ok persistTo)
    (hreplicate : Properties.replicateTo? (Properties.inForce m.raw) = .ok replicateTo)
    (hpolicy : Durability.resolve level persistTo replicateTo = .ok c.durability) :
    Config.resolve m.raw = .ok c := by
  have hreads : Properties.Reads (Properties.inForce m.raw)
      (origin c level persistTo replicateTo) :=
    { host := (field_text_iff (by decide)).mpr (congrArg Params.host h.connection)
      bucket := (field_text_iff (by decide)).mpr (congrArg Params.bucket h.connection)
      username := (field_text_iff (by decide)).mpr (congrArg Params.username h.connection)
      password := (field_text_iff (by decide)).mpr (congrArg Params.password h.connection)
      kvTimeoutMillis := kvTimeoutMillis?_iff.mpr ⟨h.timeout, h.timeout_pos⟩
      kvEndpoints := kvEndpoints?_iff.mpr ⟨h.endpoints, h.one_le_endpoints⟩
      durability := hlevel
      persistTo := hpersist
      replicateTo := hreplicate }
  refine Config.resolve_eq_ok_iff.mpr ⟨_, hreads, ?_⟩
  refine Config.ofProperties_eq_ok_iff.mpr ⟨c.durability, hpolicy, ?_⟩
  rw [h.params_origin]
  rfl

theorem resolve_of_describes {c : Config} (h : m.Describes c) : Config.resolve m.raw = .ok c := by
  cases hs : m.text? .durability with
  | some s =>
    obtain ⟨l, hl, hdenotes⟩ := h.level s hs
    have hlevel : Properties.durability? (Properties.inForce m.raw) = .ok (some l.number) := by
      rw [durability?_iff, hs]
      exact ⟨_, rfl, hdenotes⟩
    exact h.resolve hlevel ((field_count_of_level hs (by decide)).mpr rfl)
      ((field_count_of_level hs (by decide)).mpr rfl)
      (Durability.resolve_some_eq_ok_iff.mpr ⟨l, hl, rfl⟩)
  | none =>
    obtain ⟨persistTo, replicateTo, hcounts, hpersist, hreplicate⟩ := h.counts hs
    have hlevel : Properties.durability? (Properties.inForce m.raw) = .ok none := by
      rw [durability?_iff, hs]
    exact h.resolve hlevel ((field_count_iff hs).mpr hpersist)
      ((field_count_iff hs).mpr hreplicate)
      (Durability.resolve_none_eq_ok_iff.mpr ⟨persistTo, replicateTo, hcounts, rfl, rfl⟩)

/-- Properties resolve to the configuration that they describe. -/
theorem resolve_eq_ok_iff {c : Config} : Config.resolve m.raw = .ok c ↔ m.Describes c :=
  ⟨describes_of_resolve, resolve_of_describes⟩

/-- A count in range is a bounded number. -/
theorem exists_count {bound : Nat} {n : Int} (h : 0 ≤ n ∧ n ≤ bound) :
    ∃ i : Fin (bound + 1), (i.val : Int) = n :=
  ⟨⟨n.toNat, by omega⟩, Int.toNat_of_nonneg h.1⟩

/-- Acceptable properties describe a policy. -/
theorem Acceptable.exists_policy (h : m.Acceptable) : ∃ policy : Policy,
    (∀ s, m.text? .durability = some s →
      ∃ l : Level, policy = .level l ∧ Numeral.Denotes s l.number) ∧
    (m.text? .durability = none →
      ∃ (persistTo : Fin 5) (replicateTo : Fin 4), policy = .counts persistTo replicateTo ∧
        m.Has .persistTo 0 persistTo.val ∧ m.Has .replicateTo 0 replicateTo.val) := by
  cases hs : m.text? .durability with
  | some s =>
    obtain ⟨n, hdenotes, hn⟩ := h.level s hs
    obtain ⟨l, rfl⟩ := Durability.exists_number_iff.mpr hn
    refine ⟨.level l, ?_, nofun⟩
    intro s' hs'
    cases hs'
    exact ⟨l, rfl, hdenotes⟩
  | none =>
    obtain ⟨p, hp, hpr⟩ := (fits_iff 0 (by decide)).mp (h.persistTo hs)
    obtain ⟨r, hr, hrr⟩ := (fits_iff 0 (by decide)).mp (h.replicateTo hs)
    obtain ⟨persistTo, rfl⟩ := exists_count hpr
    obtain ⟨replicateTo, rfl⟩ := exists_count hrr
    exact ⟨.counts persistTo replicateTo, nofun, fun _ => ⟨persistTo, replicateTo, rfl, hp, hr⟩⟩

theorem acceptable_iff : m.Acceptable ↔ ∃ c, m.Describes c := by
  constructor
  · intro h
    obtain ⟨policy, hlevel, hcounts⟩ := h.exists_policy
    obtain ⟨millis, htimeout, hpos⟩ := (fits_iff 10000 (by decide)).mp h.timeout
    obtain ⟨endpoints, hendpoints, hone⟩ := (fits_iff 1 (by decide)).mp h.endpoints
    exact ⟨⟨policy, millis, m.params millis endpoints⟩, hlevel, hcounts, htimeout, hpos,
      hendpoints, hone, rfl⟩
  · rintro ⟨c, h⟩
    refine ⟨?_, ?_, ?_, ?_, ?_⟩
    · exact (fits_iff 10000 (by decide)).mpr ⟨_, h.timeout, h.timeout_pos⟩
    · exact (fits_iff 1 (by decide)).mpr ⟨_, h.endpoints, h.one_le_endpoints⟩
    · intro s hs
      obtain ⟨l, -, hdenotes⟩ := h.level s hs
      exact ⟨l.number, hdenotes, Durability.exists_number_iff.mp ⟨l, rfl⟩⟩
    · intro hs
      obtain ⟨persistTo, -, -, hpersist, -⟩ := h.counts hs
      have hlt := persistTo.isLt
      exact (fits_iff 0 (by decide)).mpr ⟨_, hpersist, by omega⟩
    · intro hs
      obtain ⟨-, replicateTo, -, -, hreplicate⟩ := h.counts hs
      have hlt := replicateTo.isLt
      exact (fits_iff 0 (by decide)).mpr ⟨_, hreplicate, by omega⟩

section Ignoring

variable (hagree : ∀ k, ¬ m.Ignored k → m'.get? k = m.get? k)

/-- The qualified spelling of a property matters, unless it is a count put out of force. -/
theorem not_ignored_key (hp : ¬ ((m.text? .durability).isSome ∧ p.IsCount)) :
    ¬ m.Ignored p.key := by
  intro hk
  generalize heq : p.key = k at hk
  cases hk with
  | unrelated h => exact (h p).1 heq.symm
  | shadowed q _ => exact Property.name_ne_key q p heq.symm
  | dropped level count h =>
    rcases h with h | h
    · exact hp ⟨level, Property.key_injective (heq.trans h) ▸ count⟩
    · exact Property.name_ne_key _ p (heq.trans h).symm

/-- A bare name matters where the qualified spelling is absent. -/
theorem not_ignored_name (hp : ¬ ((m.text? .durability).isSome ∧ p.IsCount))
    (habsent : m.get? p.key = none) : ¬ m.Ignored p.name := by
  intro hk
  generalize heq : p.name = k at hk
  cases hk with
  | unrelated h => exact (h p).2 heq.symm
  | shadowed q hq =>
    rw [← Property.name_injective heq, OrderedMap.contains, habsent] at hq
    cases hq
  | dropped level count h =>
    rcases h with h | h
    · exact Property.name_ne_key p _ (heq.trans h)
    · exact hp ⟨level, Property.name_injective (heq.trans h) ▸ count⟩

include hagree

/-- A property in force is found under the same spelling, with the same text. -/
theorem effective?_of_agree (hp : ¬ ((m.text? .durability).isSome ∧ p.IsCount)) :
    Properties.effective? m'.raw p = Properties.effective? m.raw p := by
  have hkey := hagree _ (not_ignored_key hp)
  rw [effective?_raw, effective?_raw, hkey]
  cases habsent : m.get? p.key with
  | some s => rfl
  | none => rw [hagree _ (not_ignored_name hp habsent)]

/-- What is ignored does not matter to the result, be it a configuration or a refusal. -/
theorem resolve_of_agree : Config.resolve m'.raw = Config.resolve m.raw := by
  have hlevel : Properties.effective? m'.raw .durability = Properties.effective? m.raw .durability :=
    effective?_of_agree hagree fun h => absurd h.2 (by decide)
  have hread : Properties.read m'.raw = Properties.read m.raw := by
    apply Properties.read_congr
    intro p
    rw [Properties.effective?_inForce, Properties.effective?_inForce, hlevel,
      isSome_effective?_raw]
    split
    · rfl
    · next hp => exact effective?_of_agree hagree hp
  rw [Config.resolve, Config.resolve, hread]

end Ignoring

/-- Properties resolve exactly when they are acceptable, and then to the configuration that they
describe. Neither the order of the properties nor anything that is ignored matters to the result,
be it a configuration or a refusal. -/
theorem resolve_texts (m : TextProperties) :
    ((∃ c, Config.resolve m.raw = .ok c) ↔ m.Acceptable) ∧
    (∀ c, Config.resolve m.raw = .ok c → m.Describes c) ∧
    ∀ m' : TextProperties, (∀ k, ¬ m.Ignored k → m'.get? k = m.get? k) →
      Config.resolve m'.raw = Config.resolve m.raw := by
  refine ⟨?_, fun c => describes_of_resolve, fun m' => resolve_of_agree⟩
  rw [acceptable_iff]
  exact exists_congr fun c => resolve_eq_ok_iff

def ranked : TextProperties :=
  .ofList [("durability", "high"), ("persistTo", "nine"), ("kvTimeoutMillis", "0250"),
    ("couchbase.durability", "+2"), ("recordcount", "all")]

def bareRanked : TextProperties :=
  .ofList [("couchbase.durability", "+2"), ("kvTimeoutMillis", "0250")]

/-- Counts that are no numerals make no difference behind a level, nor do bare names behind
qualified spellings. -/
theorem resolve_texts_ranked :
    bareRanked.Acceptable ∧
    Config.resolve ranked.raw =
      .ok ⟨.level .majorityAndPersistToActive, 250, bareRanked.params 250 1⟩ := by
  have hbare : Config.resolve bareRanked.raw =
      .ok ⟨.level .majorityAndPersistToActive, 250, bareRanked.params 250 1⟩ := rfl
  have htexts := resolve_texts bareRanked
  refine ⟨htexts.1.mp ⟨_, hbare⟩, (htexts.2.2 ranked fun k hk => ?_).trans hbare⟩
  -- a key in which the two differ is ignored
  have hdurability : k ≠ "durability" := by
    rintro rfl
    exact hk (.shadowed .durability rfl)
  have hpersist : k ≠ "persistTo" := by
    rintro rfl
    exact hk (.dropped rfl (Or.inl rfl) (Or.inr rfl))
  have hcount : k ≠ "recordcount" := by
    rintro rfl
    exact hk (.unrelated fun p => by cases p <;> decide)
  simp only [ranked, bareRanked, OrderedMap.ofList, List.foldl_cons, List.foldl_nil,
    OrderedMap.get?_insert, hdurability, hpersist, hcount, if_false]
  split <;> split <;> simp_all

end TextProperties

end StoreBinding
