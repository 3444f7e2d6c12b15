import StoreBinding.Proofs.Acceptance
import StoreBinding.Client

/-!
What is left of properties, parameters and bindings when the text of the password is taken out.
Properties that are the same after that are accepted or refused alike, with the same error, and a
configuration that comes of them is the same but for the password. No other text that is made of
properties or parameters shows it.
-/
namespace StoreBinding

def Value.redacted : Value → Value
  | .text _ => .text ""
  | v => v

theorem Value.map_readText_redacted {v v' : Value} (h : v.redacted = v'.redacted) :
    v.readText.map (fun _ => ()) = v'.readText.map fun _ => () := by
  cases v <;> cases v' <;> cases h <;> rfl

/-- Results that are the same but for what a function does not tell apart. -/
theorem map_eq_map_cases {ε α β : Type} {x x' : Except ε α} {f : α → β} (h : x.map f = x'.map f) :
    (∃ e, x = .error e ∧ x' = .error e) ∨ ∃ v v', x = .ok v ∧ x' = .ok v' ∧ f v = f v' := by
  cases x with
  | error e => cases x' <;> cases h; exact Or.inl ⟨e, rfl, rfl⟩
  | ok v =>
    cases x' with
    | error e => cases h
    | ok v' => exact Or.inr ⟨v, v', rfl, rfl, Except.ok.inj h⟩

theorem Entries.lookup_mapWithKey {κ α : Type} [DecidableEq κ] (f : κ → α → α) (k : κ)
    (l : List (κ × α)) :
    lookup k (l.map fun p => (p.1, f p.1 p.2)) = (lookup k l).map (f k) := by
  induction l with
  | nil => rfl
  | cons p rest ih =>
    by_cases hp : p.1 = k
    · simp [lookup, hp]
    · simp [lookup, hp, ih]

def Properties.redactedAt (key : String) (v : Value) : Value :=
  if Property.bare key = Property.password.name then v.redacted else v

def RawProperties.redacted (m : RawProperties) : RawProperties where
  entries := m.entries.map fun p => (p.1, Properties.redactedAt p.1 p.2)
  nodup := by simpa [List.map_map, Function.comp_def] using m.nodup

theorem RawProperties.get?_redacted (m : RawProperties) (k : String) :
    m.redacted.get? k = (OrderedMap.get? m k).map (Properties.redactedAt k) :=
  Entries.lookup_mapWithKey Properties.redactedAt k m.entries

namespace Properties

theorem redactedAt_spelling {p : Property} {k : String} (hk : k = p.key ∨ k = p.name) (v : Value) :
    redactedAt k v = if p = .password then v.redacted else v := by
  have hbare : Property.bare k = Property.password.name ↔ p = .password := by
    rw [Property.bare_eq_name_iff.mpr hk]
    exact ⟨Property.name_injective, congrArg _⟩
  simp only [redactedAt, hbare]

/-- What a property has in force is the same, except that the password is redacted. -/
theorem effective?_redacted (m : RawProperties) (p : Property) :
    effective? m.redacted p =
      (effective? m p).map fun f => (f.1, if p = .password then f.2.redacted else f.2) := by
  simp only [effective?, RawProperties.get?_redacted]
  cases m.get? p.key with
  | some v => simp [redactedAt_spelling (Or.inl rfl)]
  | none => cases m.get? p.name <;> simp [redactedAt_spelling (Or.inr rfl)]

section

variable {m m' : RawProperties} (h : m.redacted = m'.redacted) {p : Property}

include h

theorem effective?_of_redacted (hp : p ≠ .password) : effective? m p = effective? m' p := by
  have hsame := effective?_redacted m p
  rw [h, effective?_redacted] at hsame
  simpa [hp] using hsame.symm

theorem effective?_inForce_of_redacted (hp : p ≠ .password) :
    effective? (inForce m) p = effective? (inForce m') p := by
  rw [effective?_inForce, effective?_inForce,
    effective?_of_redacted h (p := .durability) (by decide), effective?_of_redacted h hp]

/-- Every property but the password reads the same. -/
theorem field_of_redacted (hp : p ≠ .password) {α : Type} (default : α)
    (reader : Value → Except Problem α) :
    field (inForce m) p default reader = field (inForce m') p default reader := by
  rw [field, field, effective?_inForce_of_redacted h hp]

/-- The password is accepted or refused alike. -/
theorem password?_of_redacted :
    (password? (inForce m)).map (fun _ => ()) = (password? (inForce m')).map fun _ => () := by
  have hsame := effective?_redacted m .password
  rw [h, effective?_redacted] at hsame
  have hforce : ∀ given, effective? (inForce given) .password = effective? given .password :=
    fun given => by rw [effective?_inForce, if_neg fun hc => absurd hc.2 (by decide)]
  simp only [password?, field, hforce]
  cases hm : effective? m .password with
  | none =>
    rw [hm] at hsame
    rw [Option.map_eq_none_iff.mp hsame]
  | some f =>
    rw [hm] at hsame
    obtain ⟨f', hm', hf⟩ := Option.map_eq_some_iff.mp hsame
    obtain ⟨hspelling, hv⟩ := Prod.mk.inj hf
    rw [if_pos rfl, if_pos rfl] at hv
    rw [hm']
    dsimp only
    rw [hspelling]
    rcases map_eq_map_cases (Value.map_readText_redacted hv) with ⟨e, he, he'⟩ | ⟨s, s', hs, hs', -⟩
    · rw [he, he']
    · rw [hs, hs']
      rfl

end

def redacted (p : Properties) : Properties := { p with password := "" }

theorem map_bind_congr {ε α β γ : Type} {x x' : Except ε α} {f f' : α → Except ε β} {g : β → γ}
    (hx : x.map (fun _ => ()) = x'.map fun _ => ()) (hf : ∀ v v', (f v).map g = (f' v').map g) :
    (x >>= f).map g = (x' >>= f').map g := by
  rcases map_eq_map_cases hx with ⟨e, rfl, rfl⟩ | ⟨v, v', rfl, rfl, -⟩
  · rfl
  · exact hf v v'

theorem map_bind_same {ε α β γ : Type} (x : Except ε α) {f f' : α → Except ε β} {g : β → γ}
    (hf : ∀ v, (f v).map g = (f' v).map g) : (x >>= f).map g = (x >>= f').map g := by
  cases x with
  | error e => rfl
  | ok v => exact hf v

/-- Properties are read alike, or refused over the same thing. -/
theorem read_of_redacted {m m' : RawProperties} (h : m.redacted = m'.redacted) :
    (read m).map redacted = (read m').map redacted := by
  have hfield := fun {p : Property} (hp : p ≠ .password) => @field_of_redacted m m' h p hp
  simp only [read, host?, bucket?, username?, kvTimeoutMillis?, kvEndpoints?, durability?,
    persistTo?, replicateTo?, hfield (p := .host) (by decide), hfield (p := .bucket) (by decide),
    hfield (p := .username) (by decide), hfield (p := .kvTimeoutMillis) (by decide),
    hfield (p := .kvEndpoints) (by decide), hfield (p := .durability) (by decide),
    hfield (p := .persistTo) (by decide), hfield (p := .replicateTo) (by decide)]
  refine map_bind_same _ fun host => map_bind_same _ fun bucket => ?_
  refine map_bind_same _ fun username => ?_
  refine map_bind_congr (password?_of_redacted h) fun password password' => ?_
  refine map_bind_same _ fun millis => map_bind_same _ fun endpoints => ?_
  refine map_bind_same _ fun level => map_bind_same _ fun persistTo => ?_
  exact map_bind_same _ fun replicateTo => rfl

/-- No text that is made of properties shows the password. -/
theorem literal_redacted (p : Properties) : p.redacted.literal = p.literal := rfl

theorem summary_redacted (p : Properties) : p.redacted.summary = p.summary := rfl

end Properties

def Params.redacted (p : Params) : Params := { p with password := "" }

theorem Params.literal_redacted (p : Params) : p.redacted.literal = p.literal := rfl

theorem Properties.params_redacted (p : Properties) : p.redacted.params = p.params.redacted := rfl

def ConnectionRequest.redacted (r : ConnectionRequest) : ConnectionRequest :=
  { r with password := r.password.redacted }

theorem ConnectionRequest.place_of_redacted {r r' : ConnectionRequest}
    (h : r.redacted = r'.redacted) : r.place = r'.place := by
  have hplace : ∀ r : ConnectionRequest, r.redacted.place = r.place := fun _ => rfl
  rw [← hplace, h, hplace]

namespace Config

def redacted (c : Config) : Config := { c with connection := c.connection.redacted }

theorem ofProperties_of_redacted {p p' : Properties} (h : p.redacted = p'.redacted) :
    (ofProperties p).map redacted = (ofProperties p').map redacted := by
  have hredact : ∀ p : Properties, (ofProperties p).map redacted = ofProperties p.redacted := by
    intro p
    simp only [ofProperties, Properties.redacted]
    cases Durability.resolve p.durability p.persistTo p.replicateTo <;> rfl
  rw [hredact, hredact, h]

/-- Properties resolve alike, or are refused with the same error. -/
theorem resolve_of_redacted {m m' : RawProperties} (h : m.redacted = m'.redacted) :
    (resolve m).map redacted = (resolve m').map redacted := by
  unfold resolve
  rcases map_eq_map_cases (Properties.read_of_redacted h) with
    ⟨e, he, he'⟩ | ⟨p, p', hp, hp', hsame⟩
  · rw [he, he']
  · rw [hp, hp']
    exact ofProperties_of_redacted hsame

theorem writeOptions_redacted (c : Config) : c.redacted.writeOptions = c.writeOptions := rfl

end Config

def Resolved.redacted (r : Resolved) : Resolved := { r with config := r.config.redacted }

namespace Client

/-- A binding's configuration and its options resolve alike. -/
theorem resolve_of_redacted {m m' : RawProperties} (h : m.redacted = m'.redacted) :
    (resolve m).map Resolved.redacted = (resolve m').map Resolved.redacted := by
  unfold resolve
  rcases map_eq_map_cases (Config.resolve_of_redacted h) with ⟨e, he, he'⟩ | ⟨c, c', hc, hc', hsame⟩
  · rw [he, he']
  · rw [hc, hc']
    have hoptions : c.writeOptions = c'.writeOptions := by
      rw [← Config.writeOptions_redacted, hsame, Config.writeOptions_redacted]
    dsimp only
    rw [hoptions]
    cases c'.writeOptions with
    | error e => rfl
    | ok options => exact congrArg Except.ok (congrArg (Resolved.mk · options) hsame)

def redacted (c : Client) : Client :=
  { c with properties := c.properties.redacted, resolved := c.resolved.map Resolved.redacted }

theorem announcement_redacted (c : Config) : announcement c.redacted = announcement c := rfl

section

variable {c c' : Client} (h : c.redacted = c'.redacted)

include h

theorem resolved_of_redacted :
    c.resolved.map Resolved.redacted = c'.resolved.map Resolved.redacted :=
  (Client.mk.inj h).2.1

theorem holds_of_redacted : c.holds = c'.holds := (Client.mk.inj h).2.2

/-- The options of calls are the same. -/
theorem options_of_redacted :
    c.resolved.map Resolved.options = c'.resolved.map Resolved.options := by
  have hoptions := congrArg (Option.map Resolved.options) (resolved_of_redacted h)
  rwa [Option.map_map, Option.map_map] at hoptions

end

end Client

end StoreBinding
