import Wisphive.TlsMaterial

/-! However the starts of daemons and web servers overlap, fail and die, what they are
given works, is for the names they asked for, and stays the same while it is valid. -/

namespace Wisphive.Tls
open Foundation Section

variable {platform : TlsPlatform} {files : TlsFiles} {now : UInt64} {sans : List String} {minted : Minted}
  {certPem keyPem : List UInt8} {result : EnsureCertResult}

theorem texts_map (sans : List String) : CertMeta.texts (sans.map .string) = some sans := by
  induction sans with
  | nil => rfl
  | cons name rest ih =>
    rw [List.map_cons, CertMeta.texts, ih]
    rfl

theorem toNat_le_maxU64 (seconds : UInt64) : seconds.toNat ≤ maxU64 :=
  Nat.le_of_lt_succ seconds.toNat_lt

theorem fromJson_toJson (stored : CertMeta) : CertMeta.fromJson stored.toJson = some stored := by
  have range : 0 ≤ (stored.createdAt.toNat : Int) ∧ (stored.createdAt.toNat : Int) ≤ maxU64 :=
    ⟨Int.natCast_nonneg _, Int.ofNat_le.mpr (toNat_le_maxU64 _)⟩
  change CertMeta.ofFields (.number (.integer stored.createdAt.toNat)) (.array (stored.sans.map .string)) = some stored
  rw [CertMeta.ofFields, if_pos range, texts_map, Int.toNat_natCast, UInt64.ofNat_toNat]
  rfl

/-- A certificate and the key that it belongs to. -/
structure Pair (platform : TlsPlatform) (certPem keyPem der : List UInt8) (certificate : Certificate) : Prop where
  envelope : platform.certDerFromPem certPem = some der
  parsed : platform.fromDer der = some certificate
  key : platform.publicKeyDer keyPem = some certificate.spki

theorem Pair.of_generate (lawful : platform.Lawful) {seed : Nat} (made : generate platform seed now sans = some minted) :
    ∃ spki, Pair platform minted.certPem minted.keyPem minted.der ⟨now.toNat - certNotBeforeBackdateSecs, spki⟩ := by
  obtain ⟨spki, certificate, key⟩ := lawful.pair made
  exact ⟨spki, lawful.envelope made, certificate, key⟩

/-- A client that is given the fingerprint can connect. -/
def Works (platform : TlsPlatform) (result : EnsureCertResult) : Prop :=
  ∃ der certificate, Pair platform result.certPem result.keyPem der certificate ∧
    result.fingerprintSha256 = fingerprintFromDer platform der

theorem checkPair_some (checked : checkPair platform now certPem keyPem = .ok (some result)) :
    result.certPem = certPem ∧ result.keyPem = keyPem ∧ Works platform result := by
  unfold checkPair at checked
  split at checked
  · cases checked
  · next der envelope =>
    split at checked
    · cases checked
    · next certificate parsed =>
      split at checked
      · cases checked
      · next spki key =>
        split at checked
        · cases checked
        · next same =>
          split at checked <;> cases checked
          rw [not_not] at same
          exact ⟨rfl, rfl, der, certificate, ⟨envelope, parsed, same ▸ key⟩, rfl⟩

theorem checkPair_pair {der : List UInt8} {certificate : Certificate} (pair : Pair platform certPem keyPem der certificate)
    (young : certAge now certificate.notBefore ≤ maxCertAgeSecs + certNotBeforeBackdateSecs) :
    checkPair platform now certPem keyPem = .ok (some ⟨certPem, keyPem, fingerprintFromDer platform der⟩) := by
  simp only [checkPair, pair.envelope, pair.parsed, pair.key]
  rw [if_neg (not_not.mpr rfl), if_neg (Int.not_lt.mpr young)]

/-- The files that a load went by. -/
theorem tryLoadExisting_some (loaded : tryLoadExisting platform now sans files = .ok (some result)) :
    ∃ stored, files.sidecar.bind (·.bind CertMeta.fromJson) = some stored ∧ stored.sans = sans ∧
      files.cert = some result.certPem ∧ files.key = some result.keyPem ∧ Works platform result := by
  unfold tryLoadExisting at loaded
  split at loaded
  · cases loaded
  · next text sidecar =>
    split at loaded
    · cases loaded
    · next stored parsed =>
      rw [sidecar]
      refine ⟨stored, parsed, ?_⟩
      split at loaded
      · cases loaded
      · split at loaded
        · cases loaded
        · split at loaded
          · cases loaded
          · next same =>
            split at loaded
            · next certPem keyPem cert key =>
              obtain ⟨rfl, rfl, works⟩ := checkPair_some loaded
              exact ⟨not_not.mp same, cert, key, works⟩
            · cases loaded

/-! ### What is given to a server works -/

/-- Whatever is there can be parsed. -/
structure Clean (platform : TlsPlatform) (files : TlsFiles) : Prop where
  sidecar : ∀ text ∈ files.sidecar, (text.bind CertMeta.fromJson).isSome = true
  cert : ∀ pem ∈ files.cert, ∃ der certificate, platform.certDerFromPem pem = some der ∧ platform.fromDer der = some certificate
  key : ∀ pem ∈ files.key, (platform.publicKeyDer pem).isSome = true

theorem Clean.checkPair_ne_error (clean : Clean platform files) {error : TlsError} (cert : files.cert = some certPem)
    (key : files.key = some keyPem) : checkPair platform now certPem keyPem ≠ .error error := by
  obtain ⟨der, certificate, envelope, parsed⟩ := clean.cert certPem cert
  obtain ⟨spki, own⟩ := Option.isSome_iff_exists.mp (clean.key keyPem key)
  simp only [checkPair, envelope, parsed, own]
  intro failed
  split at failed
  · cases failed
  · split at failed <;> cases failed

theorem Clean.tryLoadExisting_ne_error (clean : Clean platform files) {error : TlsError} :
    tryLoadExisting platform now sans files ≠ .error error := by
  intro failed
  unfold tryLoadExisting at failed
  split at failed
  · cases failed
  · next text sidecar =>
    obtain ⟨stored, parsed⟩ := Option.isSome_iff_exists.mp (clean.sidecar text sidecar)
    simp only [parsed] at failed
    split at failed
    · cases failed
    · split at failed
      · cases failed
      · split at failed
        · cases failed
        · split at failed
          · next cert key => exact clean.checkPair_ne_error cert key failed
          · cases failed

/-- What is known of a place by what has been minted and by the error that is cleaned up. -/
def Place.Fits (made : List String → Minted → Prop) (refusable : TlsError → Prop) : Place → Prop
  | .load _ | .generate _ => True
  | .writeKey sans minted | .writeCert sans minted | .writeMeta sans minted => made sans minted
  | .removeMeta _ error | .removeKey error | .removeCert error => refusable error

/-- A call fails by itself, and by nothing that it finds. -/
def Own (error : TlsError) : Prop :=
  error = .io ∨ error = .mint

def Sane (platform : TlsPlatform) (commits : List (List String × EnsureCertResult)) (files : TlsFiles) : Prop :=
  (∀ commit ∈ commits, Works platform commit.2) ∧ Clean platform files

def Made (platform : TlsPlatform) (sans : List String) (minted : Minted) : Prop :=
  ∃ seed now, generate platform seed now sans = some minted

theorem Sane.commit {commits : List (List String × EnsureCertResult)} (sane : Sane platform commits files)
    {request : List String} {after : TlsFiles} (works : Works platform result) (clean : Clean platform after) :
    Sane platform (commits ++ [(request, result)]) after := by
  refine ⟨fun commit member => ?_, clean⟩
  obtain before | now := List.mem_append.mp member
  · exact sane.1 commit before
  · obtain rfl := List.mem_singleton.mp now
    exact works

theorem sane_keeps (lawful : platform.Lawful) : (ensureCert platform).Keeps .none (Sane platform)
    (fun _ place commits files => Sane platform commits files ∧ place.Fits (Made platform) Own) Own where
  enters _ sane := ⟨sane, trivial⟩
  cut _ inside := inside.1
  io := .inl rfl
  advances := by
    rintro request place commits files ⟨fault, now, seed⟩ - ⟨sane, fits⟩
    have clean := sane.2
    cases place with
    | load sans =>
      simp only [ensureCert]
      split
      · exact ⟨sane, .inl rfl⟩
      · split
        · next failed => exact absurd failed clean.tryLoadExisting_ne_error
        · next loaded =>
          obtain ⟨_, _, _, _, _, works⟩ := tryLoadExisting_some loaded
          exact sane.commit works clean
        · exact ⟨sane, trivial⟩
    | generate sans =>
      simp only [ensureCert]
      split
      · next made => exact ⟨sane, seed, now, made⟩
      · exact ⟨sane, .inr rfl⟩
    | writeKey sans minted =>
      obtain ⟨seed, now, made⟩ := fits
      obtain ⟨spki, pair⟩ := Pair.of_generate lawful made
      simp only [ensureCert]
      split
      · exact ⟨sane, .inl rfl⟩
      · refine ⟨⟨sane.1, clean.sidecar, clean.cert, fun pem own => ?_⟩, seed, now, made⟩
        cases own
        exact Option.isSome_of_eq_some pair.key
    | writeCert sans minted =>
      obtain ⟨seed, now, made⟩ := fits
      obtain ⟨spki, pair⟩ := Pair.of_generate lawful made
      simp only [ensureCert]
      split
      · exact ⟨sane, .inl rfl⟩
      · refine ⟨⟨sane.1, clean.sidecar, fun pem own => ?_, clean.key⟩, seed, now, made⟩
        cases own
        exact ⟨_, _, pair.envelope, pair.parsed⟩
    | writeMeta sans minted =>
      obtain ⟨seed, minting, made⟩ := fits
      obtain ⟨spki, pair⟩ := Pair.of_generate lawful made
      simp only [ensureCert]
      split
      · exact ⟨sane, .inl rfl⟩
      · refine sane.commit ⟨_, _, pair, rfl⟩ ⟨fun text own => ?_, clean.cert, clean.key⟩
        obtain rfl := Option.some.inj own
        rw [Option.bind_some, fromJson_toJson]
        rfl
    | removeMeta replaced error =>
      simp only [ensureCert]
      split
      · exact ⟨sane, fits⟩
      · exact ⟨⟨sane.1, fun _ own => absurd own (Option.some_ne_none _).symm, clean.cert, clean.key⟩, fits⟩
    | removeKey error =>
      simp only [ensureCert]
      split
      · exact ⟨sane, fits⟩
      · exact ⟨⟨sane.1, clean.sidecar, clean.cert, fun _ own => absurd own (Option.some_ne_none _).symm⟩, fits⟩
    | removeCert error =>
      simp only [ensureCert]
      split
      · exact ⟨sane, fits⟩
      · exact ⟨⟨sane.1, clean.sidecar, fun _ own => absurd own (Option.some_ne_none _).symm, clean.key⟩, fits⟩

abbrev Run :=
  State TlsFiles (List String) Place EnsureCertResult TlsError

/-- One certificate, minted ten days into 1970. -/
def oneCertificate : TlsPlatform where
  selfSigned _ sans notBefore _ := if sans = ["localhost"] ∧ notBefore = 777600 then some ⟨[1], [2], [3]⟩ else none
  certDerFromPem pem := if pem = [2] then some [3] else none
  fromDer der := if der = [3] then some ⟨777600, [4]⟩ else none
  publicKeyDer pem := if pem = [1] then some [4] else none
  sha256 der := der
  names der := if der = [3] then some ["localhost"] else none

theorem oneCertificate_minted {seed : Nat} {notBefore notAfter : Int}
    (made : oneCertificate.selfSigned seed sans notBefore notAfter = some minted) :
    sans = ["localhost"] ∧ notBefore = 777600 ∧ minted = ⟨[1], [2], [3]⟩ := by
  simp only [oneCertificate] at made
  split at made
  · next asked =>
    cases made
    exact ⟨asked.1, asked.2, rfl⟩
  · cases made

theorem oneCertificate_lawful : oneCertificate.Lawful where
  envelope made := by
    obtain ⟨-, -, rfl⟩ := oneCertificate_minted made
    rfl
  pair made := by
    obtain ⟨-, rfl, rfl⟩ := oneCertificate_minted made
    exact ⟨[4], rfl, rfl⟩
  named made := by
    obtain ⟨rfl, -, rfl⟩ := oneCertificate_minted made
    rfl

def noFiles : TlsFiles :=
  ⟨none, none, none⟩

theorem clean_noFiles : Clean platform noFiles where
  sidecar _ own := absurd own (Option.some_ne_none _).symm
  cert _ own := absurd own (Option.some_ne_none _).symm
  key _ own := absurd own (Option.some_ne_none _).symm

/-- A daemon dies behind the key that it has written while a web server waits for the lock.
Another web server comes later. -/
def overlap : List (Event (List String) Choice) :=
  let now : Choice := ⟨false, 864000, 7⟩
  let daemon : Worker := ⟨1, 0⟩
  let web : Worker := ⟨2, 0⟩
  let later : Worker := ⟨3, 0⟩
  [.call daemon ["localhost"], .enter daemon, .take daemon, .call web ["localhost"], .enter web, .advance daemon now,
    .advance daemon now, .advance daemon now, .kill 1, .take web, .advance web now, .advance web now, .advance web now,
    .advance web now, .advance web now, .unlock web, .leave web, .call later ["localhost"], .enter later, .take later,
    .advance later now, .unlock later, .leave later]

/-- However the servers overlap, fail and die on their way, whoever is given a pair can serve
with it, and none is ever refused over what another one has left behind. -/
theorem ensured_pair_works {run : Run} (lawful : platform.Lawful) (clean : Clean platform files)
    (reached : ((ensureCert platform).machine files).Reachable Machine.free run) :
    ∀ answer ∈ run.results, match answer.2 with
      | .ok result => Works platform result
      | .error error => Own error := by
  have kept := Kept.reached (sane_keeps lawful) ⟨fun _ member => absurd member List.not_mem_nil, clean⟩
    (reachable_none reached)
  have sane := kept.good_throughout (sane_keeps lawful) fun _ => trivial
  intro answer member
  have answered := kept.told answer member
  split
  · next given =>
    rw [given] at answered
    obtain ⟨request, committed⟩ := answered
    exact sane.1 _ (List.mem_map_of_mem committed)
  · next failed =>
    rw [failed] at answered
    exact answered

theorem overlap_answers :
    (((ensureCert oneCertificate).machine noFiles).run Machine.free ((ensureCert oneCertificate).machine noFiles).start
      overlap).map (fun run => run.results.map fun answer => (answer.1, answer.2.isOk)) = some [(1, true), (2, true)] := by
  decide +kernel

theorem ensured_pair_works_overlap :
    ∃ run : Run, (run.results.map fun answer => (answer.1, answer.2.isOk)) = [(1, true), (2, true)] ∧
      ∀ answer ∈ run.results, match answer.2 with
        | .ok result => Works oneCertificate result
        | .error error => Own error := by
  obtain ⟨run, taken, answers⟩ := Option.map_eq_some_iff.mp overlap_answers
  exact ⟨run, answers, ensured_pair_works oneCertificate_lawful clean_noFiles (Machine.Reachable.start.run taken)⟩

/-! ### The pair is for the names that were asked for -/

/-- The names that a client reads of a certificate. -/
def namesOf (platform : TlsPlatform) (certPem : List UInt8) : Option (List String) :=
  (platform.certDerFromPem certPem).bind platform.names

/-- The sidecar has the names of the certificate beside it. -/
def Labelled (platform : TlsPlatform) (files : TlsFiles) : Prop :=
  ∀ stored, files.sidecar.bind (·.bind CertMeta.fromJson) = some stored →
    ∀ pem ∈ files.cert, namesOf platform pem = some stored.sans

theorem Labelled.of_absent (absent : files.sidecar = none ∨ files.cert = none) : Labelled platform files := by
  intro stored read pem own
  obtain none | none := absent
  · rw [none] at read
    exact absurd read (Option.some_ne_none _).symm
  · rw [none] at own
    exact absurd own (Option.some_ne_none _).symm

def Named (platform : TlsPlatform) (commits : List (List String × EnsureCertResult)) : Prop :=
  ∀ commit ∈ commits, namesOf platform commit.2.certPem = some commit.1

theorem Named.commit {commits : List (List String × EnsureCertResult)} (named : Named platform commits) {request : List String}
    (now : namesOf platform result.certPem = some request) : Named platform (commits ++ [(request, result)]) := by
  intro commit member
  obtain before | latest := List.mem_append.mp member
  · exact named commit before
  · obtain rfl := List.mem_singleton.mp latest
    exact now

/-- Nobody is cut off while the sidecar of the last certificate is beside the next one, and a
sidecar that is beside it can be deleted. -/
def relabelling : Limits (List String) Place Choice where
  asks _ := True
  meets place choice :=
    match place with
    | .removeMeta replaced _ => replaced = true → choice.fault = false
    | _ => True
  cuts place :=
    match place with
    | .writeMeta .. => False
    | .removeMeta replaced _ => replaced = false
    | _ => True

instance : DecidablePred relabelling.asks := fun _ => .isTrue trivial

instance (place : Place) (choice : Choice) : Decidable (relabelling.meets place choice) :=
  match place with
  | .removeMeta replaced _ => inferInstanceAs (Decidable (replaced = true → choice.fault = false))
  | .load _ | .generate _ | .writeKey .. | .writeCert .. | .writeMeta .. | .removeKey _ | .removeCert _ => .isTrue trivial

instance : DecidablePred relabelling.cuts
  | .writeMeta .. => .isFalse id
  | .removeMeta replaced _ => inferInstanceAs (Decidable (replaced = false))
  | .load _ | .generate _ | .writeKey .. | .writeCert .. | .removeKey _ | .removeCert _ => .isTrue trivial

/-- What a place knows of the names on the files. -/
def Relabels (platform : TlsPlatform) (request : List String) (files : TlsFiles) : Place → Prop
  | .load sans | .generate sans => sans = request ∧ Labelled platform files
  | .writeKey sans minted | .writeCert sans minted =>
    sans = request ∧ Labelled platform files ∧ namesOf platform minted.certPem = some request
  | .writeMeta sans minted => sans = request ∧ files.cert = some minted.certPem ∧ namesOf platform minted.certPem = some request
  | .removeMeta replaced _ => replaced = false → Labelled platform files
  | .removeKey _ | .removeCert _ => Labelled platform files

theorem namesOf_generate (lawful : platform.Lawful) {seed : Nat} (made : generate platform seed now sans = some minted) :
    namesOf platform minted.certPem = some sans := by
  rw [namesOf, lawful.envelope made, Option.bind_some]
  exact lawful.named made

theorem named_keeps (lawful : platform.Lawful) : (ensureCert platform).Keeps relabelling
    (fun commits files => Named platform commits ∧ Labelled platform files)
    (fun request place commits files => Named platform commits ∧ Relabels platform request files place) fun _ => True where
  enters _ good := ⟨good.1, rfl, good.2⟩
  cut := by
    rintro request place commits files allowed ⟨named, relabels⟩
    cases place with
    | load | generate => exact ⟨named, relabels.2⟩
    | writeKey | writeCert => exact ⟨named, relabels.2.1⟩
    | writeMeta => exact allowed.elim
    | removeMeta => exact ⟨named, relabels allowed⟩
    | removeKey | removeCert => exact ⟨named, relabels⟩
  io := trivial
  advances := by
    rintro request place commits files ⟨fault, now, seed⟩ met ⟨named, relabels⟩
    cases place with
    | load sans =>
      obtain ⟨rfl, labelled⟩ := relabels
      simp only [ensureCert]
      split
      · exact ⟨⟨named, labelled⟩, trivial⟩
      · split
        · exact ⟨⟨named, labelled⟩, trivial⟩
        · next loaded =>
          obtain ⟨stored, read, rfl, cert, -, -⟩ := tryLoadExisting_some loaded
          exact ⟨named.commit (labelled stored read _ cert), labelled⟩
        · exact ⟨named, rfl, labelled⟩
    | generate sans =>
      obtain ⟨rfl, labelled⟩ := relabels
      simp only [ensureCert]
      split
      · next made => exact ⟨named, rfl, labelled, namesOf_generate lawful made⟩
      · exact ⟨named, fun _ => labelled⟩
    | writeKey sans minted =>
      simp only [ensureCert]
      split
      · exact ⟨named, fun _ => relabels.2.1⟩
      · exact ⟨named, relabels⟩
    | writeCert sans minted =>
      simp only [ensureCert]
      split
      · exact ⟨named, fun _ => relabels.2.1⟩
      · exact ⟨named, relabels.1, rfl, relabels.2.2⟩
    | writeMeta sans minted =>
      obtain ⟨rfl, cert, own⟩ := relabels
      simp only [ensureCert]
      split
      · exact ⟨named, Bool.noConfusion⟩
      · refine ⟨named.commit own, fun stored read pem held => ?_⟩
        rw [Option.bind_some, Option.bind_some, fromJson_toJson] at read
        obtain rfl := Option.some.inj read
        obtain rfl := Option.some.inj (cert.symm.trans held)
        exact own
    | removeMeta replaced error =>
      cases fault with
      | false => exact ⟨named, Labelled.of_absent (.inl rfl)⟩
      | true =>
        -- a deletion may fail where the certificate is still the old one
        cases replaced with
        | false => exact ⟨named, relabels rfl⟩
        | true => exact absurd (met rfl) Bool.noConfusion
    | removeKey error =>
      simp only [ensureCert]
      split
      · exact ⟨named, relabels⟩
      · exact ⟨named, relabels⟩
    | removeCert error =>
      simp only [ensureCert]
      split
      · exact ⟨⟨named, relabels⟩, trivial⟩
      · exact ⟨⟨named, Labelled.of_absent (.inr rfl)⟩, trivial⟩

/-- Where nobody is cut off between a certificate and its sidecar, every server is given a
certificate for the very names that it asked for. -/
theorem ensured_pair_named {run : Run} (lawful : platform.Lawful) (labelled : Labelled platform files)
    (reached : ((ensureCert platform).machine files).Reachable relabelling.Allows run) :
    ∀ call result, (call, .ok result) ∈ run.results →
      ∃ request, (call, request, result) ∈ run.committed ∧ namesOf platform result.certPem = some request := by
  have kept := Kept.reached (named_keeps lawful) ⟨fun _ member => absurd member List.not_mem_nil, labelled⟩ reached
  have named : Named platform (run.committed.map Prod.snd) := by
    obtain good | ⟨_, _, _, _, inside⟩ := kept.good_or_inside
    · exact good.1
    · exact inside.1
  intro call result member
  obtain ⟨request, committed⟩ := kept.told _ member
  exact ⟨request, committed, named _ (List.mem_map_of_mem committed)⟩

theorem overlap_relabels :
    (((ensureCert oneCertificate).machine noFiles).run relabelling.Allows ((ensureCert oneCertificate).machine noFiles).start
      overlap).map (fun run => run.results.map fun answer => (answer.1, answer.2.isOk)) = some [(1, true), (2, true)] := by
  decide +kernel

theorem ensured_pair_named_overlap :
    ∃ run : Run, (run.results.map fun answer => (answer.1, answer.2.isOk)) = [(1, true), (2, true)] ∧
      ∀ call result, (call, .ok result) ∈ run.results →
        ∃ request, (call, request, result) ∈ run.committed ∧ namesOf oneCertificate result.certPem = some request := by
  obtain ⟨run, taken, answers⟩ := Option.map_eq_some_iff.mp overlap_relabels
  exact ⟨run, answers, ensured_pair_named oneCertificate_lawful (Labelled.of_absent (.inl rfl)) (Machine.Reachable.start.run taken)⟩

/-! ### The pair stays the same while it is valid -/

/-- Every server asks for the same names, and no clock leaves the lifetime of a certificate. -/
def lifetime (sans : List String) (start : Nat) : Limits (List String) Place Choice where
  asks request := request = sans
  meets _ choice := start ≤ choice.now.toNat ∧ choice.now.toNat ≤ start + maxCertAgeSecs
  cuts _ := True

instance : DecidablePred (lifetime sans start).asks :=
  fun request => inferInstanceAs (Decidable (request = sans))

instance : DecidablePred (lifetime sans start).cuts := fun _ => .isTrue trivial

instance (place : Place) (choice : Choice) : Decidable ((lifetime sans start).meets place choice) :=
  inferInstanceAs (Decidable (start ≤ choice.now.toNat ∧ choice.now.toNat ≤ start + maxCertAgeSecs))

/-- A pair is stored that every clock of the lifetime finds valid. -/
structure Stored (platform : TlsPlatform) (sans : List String) (start : Nat) (held : EnsureCertResult) (files : TlsFiles) : Prop where
  sidecar : ∃ createdAt : UInt64, start ≤ createdAt.toNat ∧ createdAt.toNat ≤ start + maxCertAgeSecs ∧
    files.sidecar = some (some (CertMeta.toJson ⟨createdAt, sans⟩))
  cert : files.cert = some held.certPem
  key : files.key = some held.keyPem
  pair : ∃ der certificate, Pair platform held.certPem held.keyPem der certificate ∧
    (start : Int) - certNotBeforeBackdateSecs ≤ certificate.notBefore ∧ held.fingerprintSha256 = fingerprintFromDer platform der

variable {start : Nat} {held : EnsureCertResult}

theorem certAge_le {notBefore bound : Int} (near : (now.toNat : Int) ≤ maxI64) (positive : 0 ≤ bound)
    (young : now.toNat - notBefore ≤ bound) : certAge now notBefore ≤ bound := by
  unfold maxI64 at near
  have plain : (now.toNat : Int).bmod (maxU64 + 1) = now.toNat := by
    unfold maxU64
    exact Int.bmod_eq_of_le (by omega) (by omega)
  have low : -maxI64 - 1 ≤ bound := by
    unfold maxI64
    omega
  rw [certAge, plain]
  exact Int.max_le.mpr ⟨low, Int.le_trans (Int.min_le_right ..) young⟩

theorem Stored.tryLoadExisting (stored : Stored platform sans start held files) (near : (start : Int) + maxCertAgeSecs ≤ maxI64)
    (late : start ≤ now.toNat) (early : now.toNat ≤ start + maxCertAgeSecs) :
    tryLoadExisting platform now sans files = .ok (some held) := by
  obtain ⟨createdAt, after, before, sidecar⟩ := stored.sidecar
  obtain ⟨der, certificate, pair, young, fingerprint⟩ := stored.pair
  have found : checkPair platform now held.certPem held.keyPem = .ok (some held) := by
    have age : (now.toNat : Int) - certificate.notBefore ≤ maxCertAgeSecs + certNotBeforeBackdateSecs := by omega
    have positive : (0 : Int) ≤ maxCertAgeSecs + certNotBeforeBackdateSecs := by decide
    rw [checkPair_pair pair (certAge_le (by omega) positive age), ← fingerprint]
  have recent : ¬ now.toNat - createdAt.toNat > maxCertAgeSecs := by omega
  have past : ¬ createdAt.toNat > min (now.toNat + maxCertAgeSecs) maxU64 :=
    Nat.not_lt.mpr (Nat.le_min.mpr ⟨by omega, toNat_le_maxU64 _⟩)
  simp only [Tls.tryLoadExisting, sidecar, Option.bind_some, fromJson_toJson]
  rw [if_neg recent, if_neg past, if_neg (not_not.mpr rfl), stored.cert, stored.key]
  exact found

theorem Stored.readCertFingerprint (stored : Stored platform sans start held files) :
    readCertFingerprint platform files = .ok (some held.fingerprintSha256) := by
  obtain ⟨der, certificate, pair, -, fingerprint⟩ := stored.pair
  simp only [Tls.readCertFingerprint, stored.cert, pair.envelope, fingerprint]

/-- Nobody has been given a pair and none can be loaded, or everybody has been given the one that is stored. -/
def Pinned (platform : TlsPlatform) (sans : List String) (start : Nat) (commits : List (List String × EnsureCertResult))
    (files : TlsFiles) : Prop :=
  commits = [] ∧ files.sidecar = none ∨
    ∃ held, (∀ commit ∈ commits, commit.2 = held) ∧ Stored platform sans start held files

def MintedWithin (platform : TlsPlatform) (sans : List String) (start : Nat) (minted : Minted) : Prop :=
  ∃ (seed : Nat) (now : UInt64), start ≤ now.toNat ∧ now.toNat ≤ start + maxCertAgeSecs ∧ generate platform seed now sans = some minted

/-- Whoever is behind the load has found no sidecar. -/
def Pins (platform : TlsPlatform) (sans : List String) (start : Nat) (commits : List (List String × EnsureCertResult))
    (files : TlsFiles) : Place → Prop
  | .load asked => asked = sans ∧ Pinned platform sans start commits files
  | .generate asked => asked = sans ∧ commits = [] ∧ files.sidecar = none
  | .writeKey asked minted => asked = sans ∧ (commits = [] ∧ files.sidecar = none) ∧ MintedWithin platform sans start minted
  | .writeCert asked minted =>
    asked = sans ∧ (commits = [] ∧ files.sidecar = none) ∧ MintedWithin platform sans start minted ∧ files.key = some minted.keyPem
  | .writeMeta asked minted =>
    asked = sans ∧ (commits = [] ∧ files.sidecar = none) ∧ MintedWithin platform sans start minted ∧
      files.key = some minted.keyPem ∧ files.cert = some minted.certPem
  | .removeMeta .. | .removeKey _ | .removeCert _ => commits = [] ∧ files.sidecar = none

theorem Pins.pinned {commits : List (List String × EnsureCertResult)} {place : Place}
    (pins : Pins platform sans start commits files place) : Pinned platform sans start commits files := by
  cases place with
  | load => exact pins.2
  | generate => exact .inl pins.2
  | writeKey | writeCert | writeMeta => exact .inl pins.2.1
  | removeMeta | removeKey | removeCert => exact .inl pins

theorem MintedWithin.stored (lawful : platform.Lawful) (within : MintedWithin platform sans start minted) (createdAt : UInt64)
    (late : start ≤ createdAt.toNat) (early : createdAt.toNat ≤ start + maxCertAgeSecs) :
    Stored platform sans start ⟨minted.certPem, minted.keyPem, fingerprintFromDer platform minted.der⟩
      ⟨some minted.certPem, some minted.keyPem, some (some (CertMeta.toJson ⟨createdAt, sans⟩))⟩ := by
  obtain ⟨seed, now, after, -, made⟩ := within
  obtain ⟨spki, pair⟩ := Pair.of_generate lawful made
  refine ⟨⟨createdAt, late, early, rfl⟩, rfl, rfl, minted.der, _, pair, ?_, rfl⟩
  dsimp only
  omega

theorem pinned_keeps (lawful : platform.Lawful) (near : (start : Int) + maxCertAgeSecs ≤ maxI64) :
    (ensureCert platform).Keeps (lifetime sans start) (Pinned platform sans start)
      (fun _ place commits files => Pins platform sans start commits files place) fun _ => True where
  enters asks pinned := ⟨asks, pinned⟩
  cut _ pins := pins.pinned
  io := trivial
  advances := by
    rintro request place commits files ⟨fault, now, seed⟩ ⟨late, early⟩ pins
    cases place with
    | load asked =>
      obtain ⟨rfl, pinned⟩ := pins
      simp only [ensureCert]
      split
      · exact ⟨pinned, trivial⟩
      · obtain ⟨none, absent⟩ | ⟨held, same, stored⟩ := pinned
        · rw [tryLoadExisting, absent]
          exact ⟨rfl, none, absent⟩
        · rw [stored.tryLoadExisting near late early]
          refine .inr ⟨held, fun commit member => ?_, stored⟩
          obtain before | latest := List.mem_append.mp member
          · exact same commit before
          · obtain rfl := List.mem_singleton.mp latest
            rfl
    | generate asked =>
      obtain ⟨rfl, empty⟩ := pins
      simp only [ensureCert]
      split
      · next made => exact ⟨rfl, empty, seed, now, late, early, made⟩
      · exact empty
    | writeKey asked minted =>
      obtain ⟨rfl, empty, within⟩ := pins
      simp only [ensureCert]
      split
      · exact empty
      · exact ⟨rfl, empty, within, rfl⟩
    | writeCert asked minted =>
      obtain ⟨rfl, empty, within, key⟩ := pins
      simp only [ensureCert]
      split
      · exact empty
      · exact ⟨rfl, empty, within, key, rfl⟩
    | writeMeta asked minted =>
      obtain ⟨rfl, empty, within, key, cert⟩ := pins
      simp only [ensureCert]
      split
      · exact empty
      · refine .inr ⟨⟨minted.certPem, minted.keyPem, fingerprintFromDer platform minted.der⟩, fun commit member => ?_, ?_⟩
        · rw [empty.1, List.nil_append] at member
          obtain rfl := List.mem_singleton.mp member
          rfl
        · rw [key, cert]
          exact within.stored lawful now late early
    | removeMeta replaced error =>
      simp only [ensureCert]
      split
      · exact pins
      · exact ⟨pins.1, rfl⟩
    | removeKey error =>
      simp only [ensureCert]
      split
      · exact pins
      · exact pins
    | removeCert error =>
      simp only [ensureCert]
      split
      · exact ⟨.inl pins, trivial⟩
      · exact ⟨.inl pins, trivial⟩

/-- While every server asks for the same names and no clock leaves the lifetime of a
certificate, all of them are given the same pair, whatever fails and dies beside them. Its
fingerprint is what the command line shows as soon as one of them has it. -/
theorem ensured_pair_pinned {run : Run} (lawful : platform.Lawful) (near : (start : Int) + maxCertAgeSecs ≤ maxI64)
    (initial : files.sidecar = none ∨ ∃ held, Stored platform sans start held files)
    (reached : ((ensureCert platform).machine files).Reachable (lifetime sans start).Allows run) :
    ∀ call result, (call, .ok result) ∈ run.results →
      readCertFingerprint platform run.shared = .ok (some result.fingerprintSha256) ∧
        ∀ other also, (other, .ok also) ∈ run.results → also = result := by
  have pinned : Pinned platform sans start [] files :=
    initial.imp (fun absent => ⟨rfl, absent⟩) fun ⟨held, stored⟩ => ⟨held, fun _ member => absurd member List.not_mem_nil, stored⟩
  have kept := Kept.reached (pinned_keeps lawful near) pinned reached
  have given : ∀ {call result}, (call, .ok result) ∈ run.results → ∃ commit ∈ run.committed.map Prod.snd, commit.2 = result := by
    intro call result member
    obtain ⟨request, committed⟩ := kept.told _ member
    exact ⟨(request, result), List.mem_map_of_mem committed, rfl⟩
  intro call result member
  obtain ⟨commit, committed, rfl⟩ := given member
  obtain ⟨none, -⟩ | ⟨held, same, stored⟩ := kept.good_throughout (pinned_keeps lawful near) fun _ => trivial
  · rw [none] at committed
    exact absurd committed List.not_mem_nil
  · rw [same commit committed]
    refine ⟨stored.readCertFingerprint, fun other also member => ?_⟩
    obtain ⟨commit, committed, rfl⟩ := given member
    exact same commit committed

theorem overlap_lives :
    (((ensureCert oneCertificate).machine noFiles).run (lifetime ["localhost"] 864000).Allows
      ((ensureCert oneCertificate).machine noFiles).start overlap).map
        (fun run => run.results.map fun answer => (answer.1, answer.2.isOk)) = some [(1, true), (2, true)] := by
  decide +kernel

theorem ensured_pair_pinned_overlap :
    ∃ run : Run, (run.results.map fun answer => (answer.1, answer.2.isOk)) = [(1, true), (2, true)] ∧
      ∀ call result, (call, .ok result) ∈ run.results →
        readCertFingerprint oneCertificate run.shared = .ok (some result.fingerprintSha256) ∧
          ∀ other also, (other, .ok also) ∈ run.results → also = result := by
  obtain ⟨run, taken, answers⟩ := Option.map_eq_some_iff.mp overlap_lives
  exact ⟨run, answers, ensured_pair_pinned oneCertificate_lawful (by decide) (.inl rfl) (Machine.Reachable.start.run taken)⟩

end Wisphive.Tls
