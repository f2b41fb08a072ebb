import Boundary.Auth.Verify
import Boundary.Go.Control
import Boundary.Go.Strings

/-!
# The auth token of a request

`GetTokenFromRequest` reads a token from the `Authorization` header or from the
two split cookies and cuts it into a public id and an encrypted token. The
verifier's `decryptToken` then looks the token up, takes the token wrapper of its
scope from the KMS and decrypts the encrypted token; `performAuthCheck` validates
what it decrypted. Every failure leaves the request anonymous.

The repositories, the KMS and the decoders are parameters of the model: each is
any function, as the verifier must cope with whatever they return.

The version check slices the first two bytes off the encrypted token before it
looks at its length: a one-byte encrypted token after a public id the repository
knows makes the verifier panic.
-/

namespace Boundary.Auth

/-! ## Reading the token -/

/-- The request fields a token is read from: the `Authorization` header and the
values of the two split cookies, each `""` when absent. -/
structure HttpRequest where
  authorization : String
  httpOnlyCookie : String
  jsVisibleCookie : String
  deriving DecidableEq, Repr

/-- The token a bearer `Authorization` header carries, with the format it gives. -/
def bearerToken (authorization : String) : TokenFormat × String :=
  if authorization != "" then
    match Strings.splitN2 (Strings.trimSpace authorization) ' ' with
    | [scheme, token] =>
      if Strings.equalFold (Strings.trimSpace scheme) "bearer" then
        (.bearer, Strings.trimSpace token)
      else (.unknown, "")
    | _ => (.unknown, "")
  else (.unknown, "")

/-- `GetTokenFromRequest`: the public id, the encrypted token and the format. -/
def getTokenFromRequest (req : HttpRequest) : String × String × TokenFormat :=
  -- the split cookies are read only without a bearer header
  let (receivedTokenType, fullToken) : TokenFormat × String :=
    if (bearerToken req.authorization).1 != .bearer && req.httpOnlyCookie != "" &&
        req.jsVisibleCookie != "" then
      (.splitCookie, req.jsVisibleCookie ++ req.httpOnlyCookie)
    else bearerToken req.authorization
  if receivedTokenType == .unknown || fullToken == "" then ("", "", .unknown)
  else if Strings.hasPrefix fullToken "r_" then ("", fullToken, .recoveryKms)
  else
    match Strings.split fullToken '_' with
    | [kind, id, encryptedToken] => (Strings.join [kind, id] "_", encryptedToken, receivedTokenType)
    | _ => ("", "", .unknown)

/-! ## The verifier's collaborators -/

/-- `authtoken.AuthToken`, with the fields the verifier reads. -/
structure AuthToken where
  publicId : String
  scopeId : String
  authAccountId : String
  iamUserId : String
  deriving DecidableEq, Repr

/-- The auth-token repository's queries. -/
structure AuthTokenRepo where
  lookupAuthToken : String → Except Error (Option AuthToken)
  validateToken : String → String → Except Error (Option AuthToken)

/-- A KMS wrapper: `Decrypt` of a blob with an AAD, any partial function. -/
structure Wrapper (Blob : Type) where
  decrypt : Blob → List UInt8 → Except Error (List UInt8)

/-- The KMS: the token wrapper of a scope, and whether a recovery wrapper is
configured. -/
structure Kms (Blob : Type) where
  getWrapper : String → Except Error (Wrapper Blob)
  hasRecoveryWrapper : Bool

/-- `tokens.S1TokenInfo`, with the field the verifier reads. -/
structure S1TokenInfo where
  token : String

/-- What the verifier calls: the KMS (nil or not), the auth-token repository
(or the error building it fails with), the base58 and protobuf decoders, and
the recovery token's checks (`ParseRecoveryToken`, its validity period and its
nonce) taken together. -/
structure Verifier (Blob : Type) where
  kms : Option (Kms Blob)
  authTokenRepoFn : Except Error AuthTokenRepo
  base58Decode : String → Except Error (List UInt8)
  unmarshalBlobInfo : List UInt8 → Except Error Blob
  unmarshalS1TokenInfo : List UInt8 → Except Error S1TokenInfo
  acceptsRecoveryToken : String → Bool

/-- The fields of `RequestInfo` the token code reads and writes. -/
structure RequestInfo where
  publicId : String
  encryptedToken : String
  token : String
  tokenFormat : TokenFormat
  deriving DecidableEq, Repr

/-! ## Decrypting -/

/-- The panic of slicing a string of `n` bytes to `[:k]` for `n < k`. -/
def sliceOutOfRange (k n : Nat) : Error :=
  .runtimeError s!"slice bounds out of range [:{k}] with length {n}"

variable {Blob : Type}

/-- The first steps of `decryptToken`: the KMS, the auth-token repository, the
looked-up token and the token wrapper of its scope; none when a step fails. -/
def Verifier.tokenWrapper (v : Verifier Blob) (publicId : String) : Option (Wrapper Blob) :=
  v.kms.bind fun kms =>
    v.authTokenRepoFn.toOption.bind fun tokenRepo =>
      (tokenRepo.lookupAuthToken publicId).toOption.join.bind fun authToken =>
        (kms.getWrapper authToken.scopeId).toOption

/-- The steps of `decryptToken` after the version check: base58, the blob, its
decryption with the public id as AAD, and the token info; none when a step fails
or no token is found. -/
def Verifier.decodeToken (v : Verifier Blob) (tokenWrapper : Wrapper Blob)
    (info : RequestInfo) : Option String :=
  (v.base58Decode (String.ofList (info.encryptedToken.toList.drop 2))).toOption.bind
    fun marshaledToken =>
  (v.unmarshalBlobInfo marshaledToken).toOption.bind fun blobInfo =>
  (tokenWrapper.decrypt blobInfo info.publicId.toUTF8.data.toList).toOption.bind fun s1Bytes =>
  (v.unmarshalS1TokenInfo s1Bytes).toOption.bind fun s1Info =>
    if info.tokenFormat == .unknown || s1Info.token == "" || info.publicId == "" then none
    else some s1Info.token

/-- The bearer and split-cookie branch of `decryptToken`: the decrypted token, or
none when the request goes on as anonymous; a panic is an error. -/
def Verifier.decryptBearer (v : Verifier Blob) (info : RequestInfo) :
    Except Error (Option String) :=
  match v.tokenWrapper info.publicId with
  | none => .ok none
  | some tokenWrapper =>
    -- `EncryptedToken[0:len(globals.ServiceTokenV1)]` slices bytes, unchecked
    if info.encryptedToken.utf8ByteSize < serviceTokenV1.utf8ByteSize then
      .error (sliceOutOfRange serviceTokenV1.utf8ByteSize info.encryptedToken.utf8ByteSize)
    else if !Strings.hasPrefix info.encryptedToken serviceTokenV1 then .ok none
    else .ok (v.decodeToken tokenWrapper info)

/-- `decryptToken`: a request whose token cannot be decrypted goes on with the
unknown format, as anonymous. -/
def Verifier.decryptToken (v : Verifier Blob) (info : RequestInfo) : Except Error RequestInfo :=
  match info.tokenFormat with
  | .unknown => .ok info
  | .bearer | .splitCookie =>
    (v.decryptBearer info).map fun
      | some token => { info with token := token }
      | none => { info with tokenFormat := .unknown }
  | .recoveryKms =>
    match v.kms with
    | some kms =>
      if kms.hasRecoveryWrapper && v.acceptsRecoveryToken info.encryptedToken then .ok info
      else .ok { info with tokenFormat := .unknown }
    | none => .ok { info with tokenFormat := .unknown }

/-- The token branch of `performAuthCheck`: the user the request goes on as, or
the error when the auth-token repository cannot be built. -/
def Verifier.authenticatedUser (v : Verifier Blob) (info : RequestInfo) : Except Error String :=
  match info.tokenFormat with
  | .unknown => .ok anonymousUserId
  | .recoveryKms => .ok recoveryUserId
  | .bearer | .splitCookie =>
    if info.token == "" then .ok anonymousUserId
    else
      match v.authTokenRepoFn with
      | .error e => .error e
      | .ok tokenRepo =>
        match tokenRepo.validateToken info.publicId info.token with
        | .error _ | .ok none => .ok anonymousUserId
        | .ok (some authToken) =>
          .ok (if authToken.iamUserId == "" then anonymousUserId else authToken.iamUserId)

/-- A request's user: its token read by `GetTokenFromRequest`, decrypted by
`decryptToken` when there is an encrypted token, and validated. -/
def Verifier.requestUser (v : Verifier Blob) (req : HttpRequest) : Except Error String := do
  let (publicId, encryptedToken, tokenFormat) := getTokenFromRequest req
  let info : RequestInfo := ⟨publicId, encryptedToken, "", tokenFormat⟩
  let info ← (if encryptedToken != "" then v.decryptToken info else pure info :
    Except Error RequestInfo)
  v.authenticatedUser info

/-! ## What each step does -/

section Steps

open GoControl

variable {v : Verifier Blob} {info : RequestInfo}

theorem tokenWrapper_eq_some_iff {publicId : String} {w : Wrapper Blob} :
    v.tokenWrapper publicId = some w ↔
      ∃ kms tokenRepo authToken, v.kms = some kms ∧ v.authTokenRepoFn = .ok tokenRepo ∧
        tokenRepo.lookupAuthToken publicId = .ok (some authToken) ∧
        kms.getWrapper authToken.scopeId = .ok w := by
  simp only [Verifier.tokenWrapper, Option.bind_eq_some_iff, toOption_eq_some_iff,
    Option.join_eq_some_iff]
  constructor
  · rintro ⟨kms, hkms, tokenRepo, hrepo, authToken, hat, hw⟩
    exact ⟨kms, tokenRepo, authToken, hkms, hrepo, hat, hw⟩
  · rintro ⟨kms, tokenRepo, authToken, hkms, hrepo, hat, hw⟩
    exact ⟨kms, hkms, tokenRepo, hrepo, authToken, hat, hw⟩

theorem decodeToken_eq_some_iff {w : Wrapper Blob} {token : String} :
    v.decodeToken w info = some token ↔
      ∃ marshaledToken blobInfo s1Bytes s1Info,
        v.base58Decode (String.ofList (info.encryptedToken.toList.drop 2)) = .ok marshaledToken ∧
        v.unmarshalBlobInfo marshaledToken = .ok blobInfo ∧
        w.decrypt blobInfo info.publicId.toUTF8.data.toList = .ok s1Bytes ∧
        v.unmarshalS1TokenInfo s1Bytes = .ok s1Info ∧
        info.tokenFormat ≠ .unknown ∧ s1Info.token ≠ "" ∧ info.publicId ≠ "" ∧
        s1Info.token = token := by
  simp only [Verifier.decodeToken, Option.bind_eq_some_iff, toOption_eq_some_iff]
  -- the last step is the check of what was decrypted
  have hcheck : ∀ s1Info : S1TokenInfo,
      (if (info.tokenFormat == .unknown || s1Info.token == "" || info.publicId == "") = true then
        none else some s1Info.token) = some token ↔
        info.tokenFormat ≠ .unknown ∧ s1Info.token ≠ "" ∧ info.publicId ≠ "" ∧
          s1Info.token = token := by
    intro s1Info
    split
    · rename_i hfail
      simp only [Bool.or_eq_true, beq_iff_eq] at hfail
      simp only [reduceCtorEq, false_iff, not_and]
      intro h1 h2 h3
      rcases hfail with (h | h) | h <;> contradiction
    · rename_i hpass
      simp only [Bool.or_eq_true, beq_iff_eq, not_or] at hpass
      simp only [Option.some.injEq]
      exact ⟨fun h => ⟨hpass.1.1, hpass.1.2, hpass.2, h⟩, fun h => h.2.2.2⟩
  simp only [hcheck]
  constructor
  · rintro ⟨m, hm, b, hb, s, hs, i, hi, hrest⟩
    exact ⟨m, b, s, i, hm, hb, hs, hi, hrest⟩
  · rintro ⟨m, b, s, i, hm, hb, hs, hi, hrest⟩
    exact ⟨m, hm, b, hb, s, hs, i, hi, hrest⟩

/-- The only panic of `decryptToken`: the version slice of an encrypted token
shorter than the version, reached once a token wrapper is found. -/
theorem decryptBearer_eq_error_iff {e : Error} :
    v.decryptBearer info = .error e ↔
      (∃ w, v.tokenWrapper info.publicId = some w) ∧ info.encryptedToken.utf8ByteSize < 2 ∧
        e = sliceOutOfRange 2 info.encryptedToken.utf8ByteSize := by
  have h2 : serviceTokenV1.utf8ByteSize = 2 := by decide
  unfold Verifier.decryptBearer
  rw [h2]
  cases hw : v.tokenWrapper info.publicId with
  | none => simp
  | some w =>
    by_cases hlen : info.encryptedToken.utf8ByteSize < 2
    · simp only [hlen, if_true, Except.error.injEq, Option.some.injEq, exists_eq', true_and]
      exact eq_comm
    · simp only [hlen, if_false, false_and, and_false, iff_false]
      split <;> exact fun h => (nomatch h)

/-- What `decryptBearer` did when it found a token. -/
theorem decryptBearer_eq_ok_some {token : String}
    (h : v.decryptBearer info = .ok (some token)) :
    ∃ w, v.tokenWrapper info.publicId = some w ∧
      Strings.hasPrefix info.encryptedToken serviceTokenV1 ∧ v.decodeToken w info = some token := by
  unfold Verifier.decryptBearer at h
  cases hw : v.tokenWrapper info.publicId with
  | none => rw [hw] at h; cases h
  | some w =>
    rw [hw] at h
    simp only at h
    split at h
    · cases h
    · split at h
      · cases h
      · rename_i hprefix
        exact ⟨w, rfl, by simpa using hprefix, Except.ok.inj h⟩

/-- `decryptToken` for the formats it decrypts. -/
theorem decryptToken_of_decrypting
    (hfmt : info.tokenFormat = .bearer ∨ info.tokenFormat = .splitCookie) :
    v.decryptToken info = (v.decryptBearer info).map fun
      | some token => { info with token := token }
      | none => { info with tokenFormat := .unknown } := by
  unfold Verifier.decryptToken
  rcases hfmt with hfmt | hfmt <;> rw [hfmt]

/-- What `decryptToken` leaves: the request as it came, anonymous, with the
decrypted token, or a recovery request it accepted. -/
theorem decryptToken_eq_ok {info' : RequestInfo} (h : v.decryptToken info = .ok info') :
    info'.publicId = info.publicId ∧ info'.encryptedToken = info.encryptedToken ∧
      (info'.tokenFormat = .unknown ∧ (info.tokenFormat = .unknown → info' = info) ∨
        (info.tokenFormat = .bearer ∨ info.tokenFormat = .splitCookie) ∧
          info'.tokenFormat = info.tokenFormat ∧ v.decryptBearer info = .ok (some info'.token) ∨
        info.tokenFormat = .recoveryKms ∧ info' = info) := by
  -- the formats `decryptToken` tells apart
  have hbearer : info.tokenFormat = .bearer ∨ info.tokenFormat = .splitCookie →
      (v.decryptBearer info).map (fun
        | some token => { info with token := token }
        | none => { info with tokenFormat := .unknown }) = .ok info' →
      info'.publicId = info.publicId ∧ info'.encryptedToken = info.encryptedToken ∧
        (info'.tokenFormat = .unknown ∧ (info.tokenFormat = .unknown → info' = info) ∨
          (info.tokenFormat = .bearer ∨ info.tokenFormat = .splitCookie) ∧
            info'.tokenFormat = info.tokenFormat ∧ v.decryptBearer info = .ok (some info'.token) ∨
          info.tokenFormat = .recoveryKms ∧ info' = info) := by
    intro hfmt h
    have hne : info.tokenFormat ≠ .unknown := by rcases hfmt with h' | h' <;> rw [h'] <;> decide
    cases hdec : v.decryptBearer info with
    | error e => rw [hdec] at h; cases h
    | ok r =>
      rw [hdec, map_ok, Except.ok.injEq] at h
      subst h
      cases r with
      | none => exact ⟨rfl, rfl, .inl ⟨rfl, fun h' => absurd h' hne⟩⟩
      | some token => exact ⟨rfl, rfl, .inr (.inl ⟨hfmt, rfl, rfl⟩)⟩
  obtain hfmt | hfmt | hfmt | hfmt : info.tokenFormat = .unknown ∨ info.tokenFormat = .bearer ∨
      info.tokenFormat = .splitCookie ∨ info.tokenFormat = .recoveryKms := by
    cases info.tokenFormat <;> simp
  · simp only [Verifier.decryptToken, hfmt, Except.ok.injEq] at h
    subst h
    exact ⟨rfl, rfl, .inl ⟨hfmt, fun _ => rfl⟩⟩
  · rw [decryptToken_of_decrypting (.inl hfmt)] at h
    exact hbearer (.inl hfmt) h
  · rw [decryptToken_of_decrypting (.inr hfmt)] at h
    exact hbearer (.inr hfmt) h
  · simp only [Verifier.decryptToken, hfmt] at h
    -- a recovery token is kept only when the KMS has a recovery wrapper that accepts it
    have hanon : info' = { info with tokenFormat := .unknown } ∨ info' = info := by
      split at h
      · split at h
        · exact .inr (Except.ok.inj h).symm
        · exact .inl (Except.ok.inj h).symm
      · exact .inl (Except.ok.inj h).symm
    rcases hanon with rfl | rfl
    · exact ⟨rfl, rfl, .inl ⟨rfl, fun h' => by rw [hfmt] at h'; cases h'⟩⟩
    · exact ⟨rfl, rfl, .inr (.inr ⟨hfmt, rfl⟩)⟩

/-- Who `performAuthCheck` lets a request go on as, when not anonymous: the
recovery user, or the user `ValidateToken` maps a decrypted token to. -/
theorem authenticatedUser_ne_anonymous {u : String} (h : v.authenticatedUser info = .ok u)
    (hu : u ≠ anonymousUserId) :
    info.tokenFormat = .recoveryKms ∧ u = recoveryUserId ∨
      (info.tokenFormat = .bearer ∨ info.tokenFormat = .splitCookie) ∧ info.token ≠ "" ∧
        ∃ tokenRepo authToken, v.authTokenRepoFn = .ok tokenRepo ∧
          tokenRepo.validateToken info.publicId info.token = .ok (some authToken) ∧
          authToken.iamUserId = u := by
  unfold Verifier.authenticatedUser at h
  split at h
  · cases h
    exact absurd rfl hu
  · cases h
    exact .inl ⟨‹_›, rfl⟩
  all_goals
    rename_i hfmt
    split at h
    · cases h
      exact absurd rfl hu
    · rename_i htoken
      split at h
      · cases h
      · rename_i tokenRepo hrepo
        split at h
        · cases h
          exact absurd rfl hu
        · cases h
          exact absurd rfl hu
        · rename_i authToken hvalid
          split at h
          · cases h
            exact absurd rfl hu
          · rename_i huser
            cases h
            refine .inr ⟨by simp [hfmt], by simpa using htoken, tokenRepo, authToken, hrepo,
              hvalid, rfl⟩

/-- `performAuthCheck` fails only when the auth-token repository cannot be built. -/
theorem authenticatedUser_eq_error {e : Error} (h : v.authenticatedUser info = .error e) :
    v.authTokenRepoFn = .error e := by
  unfold Verifier.authenticatedUser at h
  split at h
  · cases h
  · cases h
  all_goals
    split at h
    · cases h
    · split at h
      · rename_i e' hrepo
        cases h
        exact hrepo
      · split at h <;> cases h

/-- `decryptToken` panics only where `decryptBearer` does. -/
theorem decryptToken_eq_error {e : Error} (h : v.decryptToken info = .error e) :
    (info.tokenFormat = .bearer ∨ info.tokenFormat = .splitCookie) ∧
      v.decryptBearer info = .error e := by
  obtain hfmt | hfmt | hfmt | hfmt : info.tokenFormat = .unknown ∨ info.tokenFormat = .bearer ∨
      info.tokenFormat = .splitCookie ∨ info.tokenFormat = .recoveryKms := by
    cases info.tokenFormat <;> simp
  · simp only [Verifier.decryptToken, hfmt] at h
    cases h
  all_goals first
    | (have hdec : info.tokenFormat = .bearer ∨ info.tokenFormat = .splitCookie := by simp [hfmt]
       rw [decryptToken_of_decrypting hdec] at h
       refine ⟨hdec, ?_⟩
       cases hb : v.decryptBearer info with
       | error e' => rw [hb] at h; cases h; rfl
       | ok r => rw [hb] at h; cases h)
    | (simp only [Verifier.decryptToken, hfmt] at h
       split at h
       · split at h <;> cases h
       · cases h)

end Steps

/-! ## Requests -/

section Requests

open GoControl

variable {v : Verifier Blob} {req : HttpRequest} {publicId encryptedToken : String}
  {tokenFormat : TokenFormat}

theorem requestUser_eq (hreq : getTokenFromRequest req = (publicId, encryptedToken, tokenFormat)) :
    v.requestUser req =
      (if encryptedToken != "" then v.decryptToken ⟨publicId, encryptedToken, "", tokenFormat⟩
        else pure ⟨publicId, encryptedToken, "", tokenFormat⟩) >>= v.authenticatedUser := by
  unfold Verifier.requestUser
  rw [hreq]

/-- A bearer or split-cookie token whose encrypted part is shorter than the
version prefix, but not empty, makes the verifier panic when the repository knows
its public id and the KMS has a token wrapper for the token's scope. -/
theorem requestUser_short_token_panics
    (hreq : getTokenFromRequest req = (publicId, encryptedToken, tokenFormat))
    (hfmt : tokenFormat = .bearer ∨ tokenFormat = .splitCookie)
    (hw : ∃ w, v.tokenWrapper publicId = some w) (hne : encryptedToken ≠ "")
    (hlen : encryptedToken.utf8ByteSize < 2) :
    v.requestUser req = .error (sliceOutOfRange 2 encryptedToken.utf8ByteSize) := by
  have hpanic : v.decryptBearer ⟨publicId, encryptedToken, "", tokenFormat⟩ =
      .error (sliceOutOfRange 2 encryptedToken.utf8ByteSize) :=
    decryptBearer_eq_error_iff.mpr ⟨hw, hlen, rfl⟩
  rw [requestUser_eq hreq, if_pos (by simpa using hne), decryptToken_of_decrypting hfmt, hpanic]
  rfl

/-- A request fails only by the version slice's panic or when the auth-token
repository cannot be built. -/
theorem requestUser_eq_error {e : Error}
    (hreq : getTokenFromRequest req = (publicId, encryptedToken, tokenFormat))
    (h : v.requestUser req = .error e) :
    (tokenFormat = .bearer ∨ tokenFormat = .splitCookie) ∧ (∃ w, v.tokenWrapper publicId = some w) ∧
        encryptedToken ≠ "" ∧ encryptedToken.utf8ByteSize < 2 ∧
        e = sliceOutOfRange 2 encryptedToken.utf8ByteSize ∨
      v.authTokenRepoFn = .error e := by
  rw [requestUser_eq hreq] at h
  by_cases he : encryptedToken = ""
  · simp only [he, bne_self_eq_false, Bool.false_eq_true, if_false] at h
    exact .inr (authenticatedUser_eq_error h)
  · rw [if_pos (by simpa using he)] at h
    cases hdec : v.decryptToken ⟨publicId, encryptedToken, "", tokenFormat⟩ with
    | ok info' =>
      rw [hdec] at h
      exact .inr (authenticatedUser_eq_error h)
    | error e' =>
      rw [hdec] at h
      cases h
      obtain ⟨hfmt, hbearer⟩ := decryptToken_eq_error hdec
      obtain ⟨hw, hlen, rfl⟩ := decryptBearer_eq_error_iff.mp hbearer
      exact .inl ⟨hfmt, hw, he, hlen, rfl⟩

/-- A request goes on as a user other than the anonymous one only with an accepted
recovery token, or with a bearer or split-cookie token whose encrypted part has
the version prefix, decodes and decrypts under the token wrapper of the looked-up
token's scope to a token that `ValidateToken` maps to that user. -/
theorem requestUser_ne_anonymous {u : String}
    (hreq : getTokenFromRequest req = (publicId, encryptedToken, tokenFormat))
    (h : v.requestUser req = .ok u) (hu : u ≠ anonymousUserId) :
    tokenFormat = .recoveryKms ∧ u = recoveryUserId ∨
      (tokenFormat = .bearer ∨ tokenFormat = .splitCookie) ∧
        ∃ w token tokenRepo authToken, v.tokenWrapper publicId = some w ∧
          Strings.hasPrefix encryptedToken serviceTokenV1 ∧
          v.decodeToken w ⟨publicId, encryptedToken, "", tokenFormat⟩ = some token ∧
          v.authTokenRepoFn = .ok tokenRepo ∧
          tokenRepo.validateToken publicId token = .ok (some authToken) ∧
          authToken.iamUserId = u := by
  rw [requestUser_eq hreq] at h
  obtain ⟨info', hdec, hauth⟩ := bind_eq_ok.mp h
  -- what the request goes on with after `decryptToken`, if it is called
  have hinfo : info' = ⟨publicId, encryptedToken, "", tokenFormat⟩ ∨
      info'.publicId = publicId ∧ info'.encryptedToken = encryptedToken ∧
        (info'.tokenFormat = .unknown ∨
          (tokenFormat = .bearer ∨ tokenFormat = .splitCookie) ∧
            info'.tokenFormat = tokenFormat ∧
            v.decryptBearer ⟨publicId, encryptedToken, "", tokenFormat⟩ = .ok (some info'.token) ∨
          tokenFormat = .recoveryKms ∧ info' = ⟨publicId, encryptedToken, "", tokenFormat⟩) := by
    split at hdec
    · obtain ⟨hp, he, hcase⟩ := decryptToken_eq_ok hdec
      refine .inr ⟨hp, he, ?_⟩
      rcases hcase with ⟨hunknown, -⟩ | hbearer | hrecovery
      · exact .inl hunknown
      · exact .inr (.inl hbearer)
      · exact .inr (.inr hrecovery)
    · exact .inl (Except.ok.inj hdec).symm
  rcases authenticatedUser_ne_anonymous hauth hu with ⟨hrec, rfl⟩ | ⟨hfmt', htoken, tokenRepo,
    authToken, hrepo, hvalid, huser⟩
  · -- a recovery request keeps its format through `decryptToken`
    refine .inl ⟨?_, rfl⟩
    rcases hinfo with rfl | ⟨-, -, hunknown | ⟨-, hsame, -⟩ | ⟨hfmt, -⟩⟩
    · exact hrec
    · rw [hrec] at hunknown
      cases hunknown
    · exact hsame ▸ hrec
    · exact hfmt
  · rcases hinfo with rfl | ⟨hp, -, hunknown | ⟨hfmt, -, hbearer⟩ | ⟨-, rfl⟩⟩
    · exact absurd rfl htoken
    · rcases hfmt' with h' | h' <;> rw [h'] at hunknown <;> cases hunknown
    · obtain ⟨w, hw, hprefix, hdecode⟩ := decryptBearer_eq_ok_some hbearer
      rw [hp] at hvalid
      exact .inr ⟨hfmt, w, info'.token, tokenRepo, authToken, hw, hprefix, hdecode, hrepo, hvalid,
        huser⟩
    · exact absurd rfl htoken

end Requests

/-! ## A one-byte encrypted token -/

/-- A verifier whose repository knows every public id and whose KMS has a token
wrapper for every scope; its decoders reject everything. -/
def knowingVerifier : Verifier Unit where
  kms := some ⟨fun _ => .ok ⟨fun _ _ => .error (.new .unknown "message authentication failed")⟩,
    false⟩
  authTokenRepoFn := .ok
    ⟨fun publicId => .ok (some ⟨publicId, "o_1234567890", "acctpw_1234567890", "u_1234567890"⟩),
      fun _ _ => .ok none⟩
  base58Decode _ := .error (.new .unknown "invalid base58 string")
  unmarshalBlobInfo _ := .error (.new .unknown "cannot parse invalid wire-format data")
  unmarshalS1TokenInfo _ := .error (.new .unknown "cannot parse invalid wire-format data")
  acceptsRecoveryToken _ := false

theorem requestUser_one_byte_token_panics :
    knowingVerifier.requestUser ⟨"Bearer at_1234567890_x", "", ""⟩ =
      .error (.runtimeError "slice bounds out of range [:2] with length 1") :=
  requestUser_short_token_panics
    (show getTokenFromRequest ⟨"Bearer at_1234567890_x", "", ""⟩ = ("at_1234567890", "x", .bearer)
      by decide) (.inl rfl) ⟨_, rfl⟩ (by decide) (by decide)

end Boundary.Auth
