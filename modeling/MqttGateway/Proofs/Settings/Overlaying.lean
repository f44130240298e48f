import Mathlib.Data.List.Nodup
import MqttGateway.Proofs.Checks
import MqttGateway.Settings.Overlay
/-!
# What overlays change

Every key stands for a field of its own. Main statement: an overlay gives the fields of the keys
that it gets to the values of the texts that are given for them, and touches nothing else; it gets
to all keys in front of the first whose text has no value. So two overlays, one after the other, do
what one does that prefers the texts of the later.
-/
namespace MqttGateway.Settings

/-! ## Fields -/

inductive Value
  | text (text : String)
  | optional (text : Option String)
  | methods (methods : List ValidationMethod)
  | number (n : UInt64)
  | flag (b : Bool)
  deriving DecidableEq, Repr

def field (s : Settings) : Key → Value
  | .address => .text s.listener.address
  | .target => .text s.listener.target
  | .certFile => .optional s.tls.certFile
  | .keyFile => .optional s.tls.keyFile
  | .clientCaFile => .optional s.tls.clientCaFile
  | .methods => .methods s.revocation.methods
  | .ocspDepth => .number s.revocation.ocsp.depth
  | .responderUrl => .optional s.revocation.ocsp.responderUrl
  | .crlDepth => .number s.revocation.crl.depth
  | .offlineFile => .optional s.revocation.crl.offlineFile
  | .offlineIssuerFile => .optional s.revocation.crl.offlineIssuerFile
  | .pointUrl => .optional s.revocation.crl.pointUrl
  | .pointIssuerFile => .optional s.revocation.crl.pointIssuerFile
  | .pointSignCheck => .flag s.revocation.crl.pointSignCheck
  | .logPackets => .flag s.general.logPackets

def Key.parse (key : Key) (text : String) : Except OverlayFault Value :=
  match key with
  | .address | .target => .ok (.text text)
  | .methods => ((ValidationMethod.ofNames text).mapError .method).map .methods
  | .ocspDepth | .crlDepth => ((readNumber text).mapError (.value key text)).map .number
  | .pointSignCheck | .logPackets => ((readBool text).mapError (.value key text)).map .flag
  | _ => .ok (.optional (some text))

/-- The settings with another value in the field of a key, if it is one for this field. -/
def put (s : Settings) (key : Key) (v : Value) : Settings :=
  match key, v with
  | .address, .text v => { s with listener.address := v }
  | .target, .text v => { s with listener.target := v }
  | .certFile, .optional v => { s with tls.certFile := v }
  | .keyFile, .optional v => { s with tls.keyFile := v }
  | .clientCaFile, .optional v => { s with tls.clientCaFile := v }
  | .methods, .methods v => { s with revocation.methods := v }
  | .ocspDepth, .number v => { s with revocation.ocsp.depth := v }
  | .responderUrl, .optional v => { s with revocation.ocsp.responderUrl := v }
  | .crlDepth, .number v => { s with revocation.crl.depth := v }
  | .offlineFile, .optional v => { s with revocation.crl.offlineFile := v }
  | .offlineIssuerFile, .optional v => { s with revocation.crl.offlineIssuerFile := v }
  | .pointUrl, .optional v => { s with revocation.crl.pointUrl := v }
  | .pointIssuerFile, .optional v => { s with revocation.crl.pointIssuerFile := v }
  | .pointSignCheck, .flag v => { s with revocation.crl.pointSignCheck := v }
  | .logPackets, .flag v => { s with general.logPackets := v }
  | _, _ => s

structure SameElsewhere (s t : Settings) : Prop where
  acl : t.acl = s.acl
  policy : t.policy = s.policy
  timeoutSeconds : t.revocation.timeoutSeconds = s.revocation.timeoutSeconds

variable {s t u : Settings} {key other : Key} {text : String} {v : Value}

theorem SameElsewhere.refl (s : Settings) : SameElsewhere s s :=
  ⟨rfl, rfl, rfl⟩

theorem SameElsewhere.symm (h : SameElsewhere s t) : SameElsewhere t s :=
  ⟨h.acl.symm, h.policy.symm, h.timeoutSeconds.symm⟩

theorem SameElsewhere.trans (h : SameElsewhere s t) (h' : SameElsewhere t u) :
    SameElsewhere s u :=
  ⟨h'.acl.trans h.acl, h'.policy.trans h.policy, h'.timeoutSeconds.trans h.timeoutSeconds⟩

/-- A text is read under its key before anything is changed. -/
theorem set_eq (s : Settings) (key : Key) (text : String) :
    s.set key text = (key.parse text).map (s.put key) := by
  cases key with
  | methods =>
    exact bind_pure_eq_map_map ((ValidationMethod.ofNames text).mapError OverlayFault.method)
      Value.methods (s.put .methods)
  | ocspDepth =>
    exact bind_pure_eq_map_map ((readNumber text).mapError (OverlayFault.value .ocspDepth text))
      Value.number (s.put .ocspDepth)
  | crlDepth =>
    exact bind_pure_eq_map_map ((readNumber text).mapError (OverlayFault.value .crlDepth text))
      Value.number (s.put .crlDepth)
  | pointSignCheck =>
    exact bind_pure_eq_map_map ((readBool text).mapError (OverlayFault.value .pointSignCheck text))
      Value.flag (s.put .pointSignCheck)
  | logPackets =>
    exact bind_pure_eq_map_map ((readBool text).mapError (OverlayFault.value .logPackets text))
      Value.flag (s.put .logPackets)
  | _ => rfl

theorem put_sameElsewhere (s : Settings) (key : Key) (v : Value) :
    SameElsewhere s (s.put key v) := by
  fun_cases put s key v <;> exact ⟨rfl, rfl, rfl⟩

theorem field_put_of_ne (h : other ≠ key) : (s.put key v).field other = s.field other := by
  fun_cases put s key v with
  | case16 => rfl
  | _ => cases other <;> first | contradiction | rfl

theorem field_put_self (h : key.parse text = .ok v) : (s.put key v).field key = v := by
  cases key with
  | methods | ocspDepth | crlDepth | pointSignCheck | logPackets =>
    rw [Key.parse, map_eq_ok_iff] at h
    obtain ⟨_, -, rfl⟩ := h
    rfl
  | _ =>
    cases h
    rfl

attribute [ext] Listener Tls Ocsp Crl Revocation General Settings

/-- The fields of the keys and the rest are all there is. -/
theorem eq_of_field (h : SameElsewhere s t) (hfields : ∀ key, t.field key = s.field key) :
    t = s := by
  have hocsp : t.revocation.ocsp = s.revocation.ocsp :=
    Ocsp.ext (Value.number.inj (hfields .ocspDepth)) (Value.optional.inj (hfields .responderUrl))
  have hcrl : t.revocation.crl = s.revocation.crl :=
    Crl.ext (Value.number.inj (hfields .crlDepth)) (Value.optional.inj (hfields .offlineFile))
      (Value.optional.inj (hfields .offlineIssuerFile)) (Value.optional.inj (hfields .pointUrl))
      (Value.optional.inj (hfields .pointIssuerFile)) (Value.flag.inj (hfields .pointSignCheck))
  apply Settings.ext
  case listener =>
    exact Listener.ext (Value.text.inj (hfields .address)) (Value.text.inj (hfields .target))
  case tls =>
    exact Tls.ext (Value.optional.inj (hfields .certFile)) (Value.optional.inj (hfields .keyFile))
      (Value.optional.inj (hfields .clientCaFile))
  case revocation =>
    exact Revocation.ext (Value.methods.inj (hfields .methods)) h.timeoutSeconds hocsp hcrl
  case acl => exact h.acl
  case policy => exact h.policy
  case general => exact General.ext (Value.flag.inj (hfields .logPackets))

/-! ## Overlays -/

variable {namePrefix : String} {lookup : String → Option String}

/-- What an overlay that has come past some keys has made of settings: the fields of those with a
text hold its value, and all else is as it was. -/
structure Overlaid (namePrefix : String) (lookup : String → Option String) (past : List Key)
    (s t : Settings) : Prop where
  parsed : ∀ key ∈ past, ∀ text ∈ given? namePrefix lookup key, key.parse text = .ok (t.field key)
  kept : ∀ key, (key ∈ past → given? namePrefix lookup key = none) → t.field key = s.field key
  elsewhere : SameElsewhere s t

inductive Ends (namePrefix : String) (lookup : String → Option String) :
    List Key → Option OverlayFault → Prop
  | complete : Ends namePrefix lookup [] none
  | stopped {key : Key} {later : List Key} {text : String} {fault : OverlayFault} :
      given? namePrefix lookup key = some text → key.parse text = .error fault →
      Ends namePrefix lookup (key :: later) (some fault)

theorem Overlaid.refl (s : Settings) : Overlaid namePrefix lookup [] s s :=
  ⟨nofun, fun _ _ => rfl, .refl s⟩

variable {past : List Key}

theorem Overlaid.pass (hgiven : given? namePrefix lookup key = none)
    (h : Overlaid namePrefix lookup past s t) : Overlaid namePrefix lookup (key :: past) s t where
  parsed := by
    rintro other (_ | ⟨_, hmem⟩) text htext
    · rw [hgiven] at htext
      cases htext
    · exact h.parsed other hmem text htext
  kept other hother := h.kept other fun hmem => hother (List.mem_cons_of_mem key hmem)
  elsewhere := h.elsewhere

theorem Overlaid.take (hgiven : given? namePrefix lookup key = some text)
    (hparse : key.parse text = .ok v) (hnew : key ∉ past)
    (h : Overlaid namePrefix lookup past (s.put key v) t) :
    Overlaid namePrefix lookup (key :: past) s t where
  parsed := by
    rintro other (_ | ⟨_, hmem⟩) text htext
    · rw [hgiven] at htext
      cases htext
      rw [hparse, h.kept key fun hmem => absurd hmem hnew, field_put_self hparse]
    · exact h.parsed other hmem text htext
  kept := by
    intro other hother
    have hne : other ≠ key := by
      rintro rfl
      cases hgiven.symm.trans (hother List.mem_cons_self)
    rw [h.kept other fun hmem => hother (List.mem_cons_of_mem key hmem), field_put_of_ne hne]
  elsewhere := (put_sameElsewhere s key v).trans h.elsewhere

/-- Each key is come past, or the overlay ends there. -/
theorem overlayKeys_spec {keys : List Key} (hkeys : keys.Nodup) (s : Settings) :
    ∃ past rest, keys = past ++ rest ∧
      Overlaid namePrefix lookup past s (overlayKeys namePrefix lookup keys s).1 ∧
      Ends namePrefix lookup rest (overlayKeys namePrefix lookup keys s).2 := by
  induction keys generalizing s with
  | nil => exact ⟨[], [], rfl, .refl s, .complete⟩
  | cons key keys ih =>
    obtain ⟨hnew, hkeys⟩ := List.nodup_cons.mp hkeys
    rw [overlayKeys]
    cases hgiven : given? namePrefix lookup key with
    | none =>
      obtain ⟨past, rest, rfl, hpast, hends⟩ := ih hkeys s
      exact ⟨key :: past, rest, rfl, hpast.pass hgiven, hends⟩
    | some text =>
      simp only [set_eq]
      cases hparse : key.parse text with
      | error fault => exact ⟨[], key :: keys, rfl, .refl s, .stopped hgiven hparse⟩
      | ok v =>
        obtain ⟨past, rest, rfl, hpast, hends⟩ := ih hkeys (s.put key v)
        -- no later key gets to the same field, as every key is there but once
        have hlater : key ∉ past := fun hmem => hnew (List.mem_append_left rest hmem)
        exact ⟨key :: past, rest, rfl, hpast.take hgiven hparse hlater, hends⟩

theorem overlay_spec (s : Settings) (namePrefix : String) (lookup : String → Option String) :
    ∃ past rest, Key.all = past ++ rest ∧
      Overlaid namePrefix lookup past s (s.overlay namePrefix lookup).1 ∧
      Ends namePrefix lookup rest (s.overlay namePrefix lookup).2 :=
  overlayKeys_spec (by decide) s

theorem mem_all (key : Key) : key ∈ Key.all := by
  cases key <;> decide

theorem Overlaid.unique (ht : Overlaid namePrefix lookup past s t)
    (hu : Overlaid namePrefix lookup past s u) : t = u := by
  refine eq_of_field (hu.elsewhere.symm.trans ht.elsewhere) fun key => ?_
  by_cases hmem : key ∈ past
  · cases hgiven : given? namePrefix lookup key with
    | none => rw [ht.kept key fun _ => hgiven, hu.kept key fun _ => hgiven]
    | some text =>
      have hvalue := (ht.parsed key hmem text hgiven).symm.trans (hu.parsed key hmem text hgiven)
      exact Except.ok.inj hvalue
  · rw [ht.kept key fun h => absurd h hmem, hu.kept key fun h => absurd h hmem]

/-- An overlay is complete with the settings that have every text that is given as their value. -/
theorem overlay_eq_none_iff :
    s.overlay namePrefix lookup = (t, none) ↔ Overlaid namePrefix lookup Key.all s t := by
  obtain ⟨past, rest, hsplit, hpast, hends⟩ := overlay_spec s namePrefix lookup
  constructor
  · intro h
    rw [h] at hpast hends
    cases hends
    rw [hsplit, List.append_nil]
    exact hpast
  · intro h
    generalize hresult : s.overlay namePrefix lookup = result at hpast hends
    obtain ⟨reached, ending⟩ := result
    cases hends with
    | complete =>
      rw [hsplit, List.append_nil] at h
      rw [show reached = t from hpast.unique h]
    | stopped hgiven hparse =>
      -- the text that it stopped at would have a value
      cases hparse.symm.trans (h.parsed _ (mem_all _) _ hgiven)

/-! ## One overlay for two -/

/-- Looks up in one place, and in another where the first has nothing but blanks. -/
def preferring (first second : String → Option String) (name : String) : Option String :=
  ((first name).filter fun text => Letters.trim text ≠ "").or (second name)

theorem given?_preferring (namePrefix : String) (first second : String → Option String)
    (key : Key) : given? namePrefix (preferring first second) key =
      (given? namePrefix first key).or (given? namePrefix second key) := by
  rw [given?, preferring, given?, given?]
  cases hfirst : (first (namePrefix ++ key.name)).filter fun text => Letters.trim text ≠ "" with
  | none => rfl
  | some text =>
    have htext := (Option.filter_eq_some_iff.mp hfirst).2
    simp only [Option.some_or, Option.filter_some, htext, if_true]

theorem Overlaid.preferring {first second : String → Option String}
    (ht : Overlaid namePrefix second past s t) (hu : Overlaid namePrefix first past t u) :
    Overlaid namePrefix (preferring first second) past s u where
  parsed := by
    intro key hmem text htext
    rw [Option.mem_def, given?_preferring] at htext
    cases hgiven : given? namePrefix first key with
    | some preferred =>
      rw [hgiven] at htext
      cases htext
      exact hu.parsed key hmem text hgiven
    | none =>
      rw [hgiven] at htext
      rw [hu.kept key fun _ => hgiven]
      exact ht.parsed key hmem text htext
  kept := by
    intro key hkey
    simp only [given?_preferring, Option.or_eq_none_iff] at hkey
    rw [hu.kept key fun hmem => (hkey hmem).1, ht.kept key fun hmem => (hkey hmem).2]
  elsewhere := ht.elsewhere.trans hu.elsewhere

/-- An overlay comes past the keys one after the other, up to one whose text has no value. The
fields of the keys that it came past hold the values of the texts that are given for them, and all
else is kept. Two complete overlays do what one does that prefers the texts of the second. -/
theorem overlay_touches_given (s : Settings) (namePrefix : String)
    (lookup : String → Option String) :
    (Key.all.map fun key => namePrefix ++ key.name).Nodup ∧
    (∃ past rest, Key.all = past ++ rest ∧
      Overlaid namePrefix lookup past s (s.overlay namePrefix lookup).1 ∧
      Ends namePrefix lookup rest (s.overlay namePrefix lookup).2) ∧
    ∀ later t u, s.overlay namePrefix lookup = (t, none) →
      t.overlay namePrefix later = (u, none) →
      s.overlay namePrefix (preferring later lookup) = (u, none) := by
  refine ⟨?_, overlay_spec s namePrefix lookup, fun later t u ht hu => ?_⟩
  · have hnames : (Key.all.map Key.name).Nodup := by decide
    have hinjective : Function.Injective (namePrefix ++ ·) :=
      fun _ _ => (String.append_right_inj namePrefix).mp
    have hprefixed : ((Key.all.map Key.name).map (namePrefix ++ ·)).Nodup :=
      hnames.map hinjective
    rwa [List.map_map] at hprefixed
  · exact overlay_eq_none_iff.mpr
      ((overlay_eq_none_iff.mp ht).preferring (overlay_eq_none_iff.mp hu))

/-- The depth is taken from the second of two overlays, and the blank address from neither. -/
theorem depth_from_second :
    let first (name : String) := [("MQ_CRL_DEPTH", "5"), ("MQ_ADDRESS", "h:1")].lookup name
    let second (name : String) := [("MQ_CRL_DEPTH", " +7 "), ("MQ_ADDRESS", " ")].lookup name
    overlay {} "MQ_" (preferring second first) =
      ({ listener.address := "h:1", revocation.crl.depth := 7 }, none) := by
  refine (overlay_touches_given {} "MQ_" _).2.2 _
    { listener.address := "h:1", revocation.crl.depth := 5 } _ ?_ ?_
  · decide +kernel
  · decide +kernel

end MqttGateway.Settings
