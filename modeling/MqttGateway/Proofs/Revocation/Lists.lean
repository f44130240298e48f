import MqttGateway.Gateway.Checks
import MqttGateway.Proofs.Certificate.Serials
import MqttGateway.Proofs.Steps
/-!
# What revocation lists decide

Main statement: with places that the settings gave, a certificate passes exactly if the first place
there is for it gives a list that is well formed, up to date, signed as that place requires, and
without the serial number of the certificate. Nothing else is asked or read.
-/
namespace MqttGateway.Crl

open Serial (SameUpToZeros)

variable {σ : Type} {env : Surroundings σ} {s : Settings.Crl} {places : Places} {c : Certificate}
  {paired : Option Certificate} {u v : σ}

/-! ## Places -/

theorem isSome_of_loadCertificate? {role : CertificateRole} {path : Option String}
    {found : Option Certificate} (h : Yields (Setup.loadCertificate? env role path) u found v) :
    found.isSome = path.isSome := by
  cases path with
  | none =>
    obtain ⟨rfl, -⟩ := yields_pure_iff.mp h
    rfl
  | some path =>
    obtain ⟨issuer, -, rfl⟩ := yields_map_iff.mp h
    rfl

inductive PointOf (env : Surroundings σ) (s : Settings.Crl) (u : σ) :
    Option (String × Certificate) → Prop
  | some {url path issuer v} : s.pointUrl = some url → s.pointIssuerFile = some path →
      Yields (Setup.loadCertificate env .pointIssuer path) u issuer v →
      PointOf env s u (some (url, issuer))
  | none : s.pointUrl = none ∨ s.pointIssuerFile = none → PointOf env s u none

inductive FileOf (env : Surroundings σ) (s : Settings.Crl) (u : σ) :
    Option (String × Option Certificate) → Prop
  | some {path issuer v} : s.offlineFile = some path →
      Yields (Setup.loadCertificate? env .fileIssuer s.offlineIssuerFile) u issuer v →
      issuer.isSome = s.offlineIssuerFile.isSome → FileOf env s u (some (path, issuer))
  | none : s.offlineFile = none → FileOf env s u none

theorem pointOf_of_yields {point : Option (String × Certificate)}
    (h : Yields (pointOfSettings env s) u point v) : PointOf env s u point := by
  rw [pointOfSettings] at h
  split at h
  case h_1 hurl =>
    obtain ⟨rfl, -⟩ := yields_pure_iff.mp h
    exact .none (.inl hurl)
  case h_2 url hurl =>
    obtain ⟨w, hsettled, hload⟩ := yields_unit_bind_iff.mp h
    obtain ⟨-, rfl⟩ := yields_ofExcept_iff.mp hsettled
    clear h
    obtain ⟨issuer, w, hissuer, h⟩ := yields_bind_iff.mp hload
    have hsame := isSome_of_loadCertificate? hissuer
    split at h
    case h_1 issuer =>
      obtain ⟨rfl, -⟩ := yields_pure_iff.mp h
      obtain ⟨path, hpath⟩ := Option.isSome_iff_exists.mp hsame.symm
      rw [hpath] at hissuer
      obtain ⟨_, hissuer, ⟨⟩⟩ := yields_map_iff.mp hissuer
      exact .some hurl hpath hissuer
    case h_2 =>
      split at h
      case isTrue => exact absurd h not_yields_throw
      case isFalse =>
        obtain ⟨rfl, -⟩ := yields_pure_iff.mp h
        exact .none (.inr (Option.not_isSome_iff_eq_none.mp (hsame ▸ Bool.false_ne_true)))

theorem fileOf_of_yields {file : Option (String × Option Certificate)}
    (h : Yields (fileOfSettings env s) u file v) : FileOf env s u file := by
  rw [fileOfSettings] at h
  split at h
  case h_1 hfile =>
    obtain ⟨rfl, -⟩ := yields_pure_iff.mp h
    exact .none hfile
  case h_2 path hfile =>
    obtain ⟨issuer, w, hissuer, h⟩ := yields_bind_iff.mp h
    rw [yields_lift_bind_iff] at h
    split at h
    case h_1 => exact absurd h not_yields_throw
    case h_2 content _ =>
      obtain ⟨_, w, -, h⟩ := yields_bind_iff.mp h
      obtain ⟨rfl, -⟩ := yields_pure_iff.mp h
      exact .some hfile hissuer (isSome_of_loadCertificate? hissuer)

/-- The place that the list for a certificate has to come from, if there is one, in a gateway that
was set up in some surroundings. -/
inductive Chosen (env : Surroundings σ) (s : Settings.Crl) (u : σ) (c : Certificate) :
    Option Source → Prop
  | named {url} : c.distributionPoints.head? = some url → Chosen env s u c (some (.named url))
  | point {url issuer} : c.distributionPoints.head? = none → PointOf env s u (some (url, issuer)) →
      Chosen env s u c (some (.point url issuer))
  | file {path issuer w} : c.distributionPoints.head? = none → PointOf env s u none →
      Yields (pointOfSettings env s) u none w → FileOf env s w (some (path, issuer)) →
      Chosen env s u c (some (.file path issuer))
  | nowhere : c.distributionPoints.head? = none → PointOf env s u none → s.offlineFile = none →
      Chosen env s u c none

theorem chosen_source? (h : Yields (placesOfSettings env s) u places v) (c : Certificate) :
    Chosen env s u c (places.source? c) := by
  obtain ⟨point, w, hpoint, h⟩ := yields_bind_iff.mp h
  obtain ⟨file, _, hfile, h⟩ := yields_bind_iff.mp h
  obtain ⟨rfl, -⟩ := yields_pure_iff.mp h
  have hpointOf := pointOf_of_yields hpoint
  have hfileOf := fileOf_of_yields hfile
  rw [Places.source?]
  split
  case h_1 url hurl => exact .named hurl
  case h_2 url issuer hnone hsome =>
    obtain rfl : point = some (url, issuer) := hsome
    exact .point hnone hpointOf
  case h_3 path issuer hnone hpointNone hsome =>
    obtain rfl : point = none := hpointNone
    obtain rfl : file = some (path, issuer) := hsome
    exact .file hnone hpointOf hpoint hfileOf
  case h_4 hnone hpointNone hfileNone =>
    obtain rfl : point = none := hpointNone
    obtain rfl : file = none := hfileNone
    cases hfileOf with
    | none hfile => exact .nowhere hnone hpointOf hfile

/-! ## Lists -/

def Source.content (env : Surroundings σ) : Source → Inquiry σ Octets
  | .named url => Inquiry.get env url
  | .point url _ => Inquiry.get env url
  | .file path _ => Inquiry.read env path

def Source.issuer (env : Surroundings σ) (c : Certificate) (paired : Option Certificate) :
    Source → Inquiry σ (Option Certificate)
  | .named _ => some <$> Inquiry.resolveIssuer env c paired
  | .point _ issuer => return some issuer
  | .file _ issuer => return issuer

structure Spares (l : RevocationList) (now : Moment) (issuer : Option Certificate)
    (c : Certificate) : Prop where
  current : ∃ date, l.nextUpdate = some date ∧ now ≤ date
  signed : ∀ i ∈ issuer, l.verifySignature i = .ok ()
  unlisted : ∀ entry ∈ l.revoked, ¬ SameUpToZeros entry.serial c.serial

theorem checkDate_eq_ok_iff {l : RevocationList} {now : Moment} :
    checkDate l now = .ok () ↔ ∃ date, l.nextUpdate = some date ∧ now ≤ date := by
  rw [checkDate, RevocationList.isCurrent]
  cases l.nextUpdate with
  | none => exact ⟨nofun, nofun⟩
  | some date => simp

theorem checkEntry_eq_ok_iff {l : RevocationList} :
    checkEntry l c = .ok () ↔ ∀ entry ∈ l.revoked, ¬ SameUpToZeros entry.serial c.serial := by
  simp only [← Serial.agree_iff]
  rw [checkEntry, RevocationList.revokedAt?]
  cases hfound : l.revoked.find? fun entry => Serial.agree entry.serial c.serial with
  | none => exact ⟨fun _ => List.find?_eq_none.mp hfound, fun _ => rfl⟩
  | some entry =>
    constructor
    · exact nofun
    · intro hall
      exact absurd (List.find?_some hfound) (hall entry (List.mem_of_find?_eq_some hfound))

theorem yields_current_iff {now : Moment} {content : Octets} {l : RevocationList} :
    Yields (current now content : Inquiry σ RevocationList) u l v ↔
      (RevocationList.ofFile content = .ok l ∧ ∃ date, l.nextUpdate = some date ∧ now ≤ date) ∧
        v = u := by
  rw [current, yields_ofExcept_iff]
  simp only [bind_eq_ok_iff, readList, mapError_eq_ok_iff, pure_eq_ok_iff, ← checkDate_eq_ok_iff]
  constructor
  · rintro ⟨⟨l, hread, _, hdate, rfl⟩, rfl⟩
    exact ⟨⟨hread, hdate⟩, rfl⟩
  · rintro ⟨⟨hread, hdate⟩, rfl⟩
    exact ⟨⟨l, hread, (), hdate, rfl⟩, rfl⟩

def checkIssued (l : RevocationList) : Option Certificate → Except VerifyFault Unit
  | some issuer => checkSignature l issuer
  | none => .ok ()

theorem checkIssued_eq_ok_iff {l : RevocationList} {issuer : Option Certificate} :
    checkIssued l issuer = .ok () ↔ ∀ i ∈ issuer, l.verifySignature i = .ok () := by
  cases issuer with
  | none => exact ⟨fun _ => nofun, fun _ => rfl⟩
  | some issuer =>
    rw [checkIssued, checkSignature, mapError_eq_ok_iff]
    simp

/-- Lists from all places are checked in the same order. -/
theorem fetch_eq (source : Source) : fetch env source c paired = do
    let now ← Inquiry.now env
    let l ← current now (← source.content env)
    let issuer ← source.issuer env c paired
    MonadExcept.ofExcept (checkIssued l issuer)
    return l := by
  cases source with
  | named url => simp only [fetch, Source.content, Source.issuer, bind_map_left, checkIssued]
  | point url issuer => simp only [fetch, Source.content, Source.issuer, pure_bind, checkIssued]
  | file path issuer =>
    cases issuer with
    | none => simp only [fetch, Source.content, Source.issuer, pure_bind, checkIssued]; rfl
    | some issuer => simp only [fetch, Source.content, Source.issuer, pure_bind, checkIssued]

/-- The list from a place, before it is asked for the certificate. -/
theorem yields_fetch_iff {source : Source} {l : RevocationList} :
    Yields (fetch env source c paired) u l v ↔ ∃ now u₁ content u₂ issuer,
      Yields (Inquiry.now env) u now u₁ ∧ Yields (source.content env) u₁ content u₂ ∧
      RevocationList.ofFile content = .ok l ∧ (∃ date, l.nextUpdate = some date ∧ now ≤ date) ∧
      Yields (source.issuer env c paired) u₂ issuer v ∧
      ∀ i ∈ issuer, l.verifySignature i = .ok () := by
  simp only [fetch_eq, yields_bind_iff, yields_current_iff, yields_pure_iff,
    yields_ofExcept_iff, ← checkIssued_eq_ok_iff]
  constructor
  · rintro ⟨now, u₁, hnow, content, u₂, hcontent, l, _, ⟨⟨hread, hdate⟩, rfl⟩, issuer, _, hissuer,
      _, _, ⟨hsigned, rfl⟩, rfl, rfl⟩
    exact ⟨now, u₁, content, _, issuer, hnow, hcontent, hread, hdate, hissuer, hsigned⟩
  · rintro ⟨now, u₁, content, u₂, issuer, hnow, hcontent, hread, hdate, hissuer, hsigned⟩
    exact ⟨now, u₁, hnow, content, u₂, hcontent, l, u₂, ⟨⟨hread, hdate⟩, rfl⟩, issuer, v, hissuer,
      (), v, ⟨hsigned, rfl⟩, rfl, rfl⟩

theorem yields_check_iff {source : Source} (hsource : places.source? c = some source) :
    Yields (check env places c paired) u () v ↔ ∃ now u₁ content u₂ l issuer,
      Yields (Inquiry.now env) u now u₁ ∧ Yields (source.content env) u₁ content u₂ ∧
      RevocationList.ofFile content = .ok l ∧ Yields (source.issuer env c paired) u₂ issuer v ∧
      Spares l now issuer c := by
  rw [check, hsource]
  simp only [yields_bind_iff, yields_fetch_iff, yields_ofExcept_iff, checkEntry_eq_ok_iff]
  constructor
  · rintro ⟨l, w, ⟨now, u₁, content, u₂, issuer, hnow, hcontent, hread, hdate, hissuer, hsigned⟩,
      hunlisted, rfl⟩
    exact ⟨now, u₁, content, u₂, l, issuer, hnow, hcontent, hread, hissuer,
      ⟨hdate, hsigned, hunlisted⟩⟩
  · rintro ⟨now, u₁, content, u₂, l, issuer, hnow, hcontent, hread, hissuer,
      ⟨hdate, hsigned, hunlisted⟩⟩
    exact ⟨l, v, ⟨now, u₁, content, u₂, issuer, hnow, hcontent, hread, hdate, hissuer, hsigned⟩,
      hunlisted, rfl⟩

theorem faults_check (hsource : places.source? c = none) :
    Faults (check env places c paired) u .noList u := by
  rw [check, hsource]
  rfl

/-! ## Other places -/

def Source.urls (c : Certificate) : Source → List String
  | .named url => url :: c.issuerUrls.head?.toList
  | .point url _ => [url]
  | .file _ _ => []

def Source.files : Source → List String
  | .file path _ => [path]
  | _ => []

structure Source.Agrees (source : Source) (c : Certificate) (env env' : Surroundings σ) : Prop where
  now : env'.now = env.now
  send : ∀ url ∈ source.urls c, env'.send (.get url) = env.send (.get url)
  read : ∀ path ∈ source.files, env'.read path = env.read path

theorem get_congr {env' : Surroundings σ} {url : String}
    (h : env'.send (.get url) = env.send (.get url)) :
    Inquiry.get env' url = Inquiry.get env url := by
  rw [Inquiry.get, Inquiry.get, h]

theorem Source.content_congr {env' : Surroundings σ} {source : Source}
    (h : source.Agrees c env env') : source.content env' = source.content env := by
  cases source with
  | named url => exact get_congr (h.send url List.mem_cons_self)
  | point url issuer => exact get_congr (h.send url List.mem_cons_self)
  | file path issuer =>
    have hread := h.read path List.mem_cons_self
    rw [content, content, Inquiry.read, Inquiry.read, hread]

theorem Source.issuer_congr {env' : Surroundings σ} {source : Source}
    (h : source.Agrees c env env') :
    source.issuer env' c paired = source.issuer env c paired := by
  cases source with
  | named url =>
    have hresolve : Inquiry.resolveIssuer env' c paired = Inquiry.resolveIssuer env c paired := by
      unfold Inquiry.resolveIssuer
      cases hissuer : c.issuerUrls.head? with
      | none => rfl
      | some location =>
        have hlocation : location ∈ (Source.named url).urls c := by simp [urls, hissuer]
        simp only [get_congr (h.send location hlocation)]
    rw [issuer, issuer, hresolve]
  | point url issuer => rfl
  | file path issuer => rfl

theorem check_congr {env' : Surroundings σ} {places' : Places} {source : Source}
    (h : source.Agrees c env env') (hsource : places.source? c = some source)
    (hsource' : places'.source? c = some source) :
    check env' places' c paired = check env places c paired := by
  have hnow : Inquiry.now env' = Inquiry.now env := by rw [Inquiry.now, Inquiry.now, h.now]
  rw [check, check, hsource, hsource']
  simp only [fetch_eq, hnow, Source.content_congr h, Source.issuer_congr h]

/-- A certificate passes by the first place that the settings leave it, and by no other. -/
theorem decides_by_first_place (h : Yields (placesOfSettings env s) u places v) (c : Certificate)
    (paired : Option Certificate) :
    Chosen env s u c (places.source? c) ∧
    (places.source? c = none → ∀ t, Faults (check env places c paired) t .noList t) ∧
    ∀ source, places.source? c = some source →
      (∀ t w, Yields (check env places c paired) t () w ↔ ∃ now t₁ content t₂ l issuer,
        Yields (Inquiry.now env) t now t₁ ∧ Yields (source.content env) t₁ content t₂ ∧
        RevocationList.ofFile content = .ok l ∧ Yields (source.issuer env c paired) t₂ issuer w ∧
        Spares l now issuer c) ∧
      ∀ env' places', source.Agrees c env env' → places'.source? c = some source →
        check env' places' c paired = check env places c paired :=
  ⟨chosen_source? h c, fun hnone _ => faults_check hnone, fun _ hsource =>
    ⟨fun _ _ => yields_check_iff hsource, fun _ _ hagrees hsource' =>
      check_congr hagrees hsource hsource'⟩⟩

/-- A list of one serial number that is up to date until 2049. -/
def sampleList : Octets :=
  .ofNat 40 0x30533042300a06082a8648ce3d0403023000170d3234303130313030303030305a170d3439313233 ++
    .ofNat 40 0x313233353935395a30143012020102170d3234303130313030303030305a300a06082a8648ce3d04 ++
    .ofNat 5 0x0302030100

def listOnly : Surroundings Unit where
  send _ := return .error none
  read _ := return some sampleList
  now := return 0

def askingLists : Settings.Crl where
  offlineFile := some "list"

theorem decides_by_file : ∃ places v, Yields (placesOfSettings listOnly askingLists) () places v ∧
    ∀ c, c.distributionPoints.head? = none → places.source? c = some (.file "list" none) := by
  obtain ⟨places, v, h⟩ : ∃ places v, Yields (placesOfSettings listOnly askingLists) () places v :=
    exists_yields_of_isOk (by decide +kernel)
  refine ⟨places, v, h, fun c hnone => ?_⟩
  have hchosen := (decides_by_first_place h c none).1
  generalize places.source? c = source at hchosen
  cases hchosen with
  | named hsome => cases hnone.symm.trans hsome
  | point _ hpoint =>
    cases hpoint with
    | some hurl => cases hurl
  | file _ _ _ hfile =>
    cases hfile with
    | some hpath _ hissuer =>
      cases hpath
      have hunsigned : askingLists.offlineIssuerFile.isSome = false := rfl
      rw [Option.isNone_iff_eq_none.mp (Option.isSome_eq_false_iff.mp (hissuer.trans hunsigned))]
  | nowhere _ _ hfile => cases hfile

end MqttGateway.Crl
