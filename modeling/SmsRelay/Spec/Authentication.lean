import SmsRelay.ForStd.Except
import SmsRelay.Native.Auth
import SmsRelay.Spec.Queue

/-!
# Who is let in

`require_api_key` compares the presented key with every configured one, and
`verify_inbound_signature` the presented signature with the right one.  Both compare text
that may not be ASCII with `hmac.compare_digest`, which raises on it, the second also
encodes a secret that may have surrogates, and neither catches what is raised.

## Key results

- `matchKeys_ok_iff`: when the loop over the keys comes to its end
- `matchKeys_ok`: what it has found then
- `auth_decides_iff`: when the two functions decide as they promise
-/

namespace SmsRelay

/-! ## Comparing -/

/-- A comparison gives an answer exactly for two ASCII texts. -/
theorem compareDigest_eq_ok {a b : PyStr} {equal : Bool} :
    compareDigest a b = .ok equal ↔ a.isAscii ∧ b.isAscii ∧ equal = decide (a = b) := by
  unfold compareDigest
  by_cases h : (a.isAscii && b.isAscii) = true
  · rw [if_pos h]
    simp only [Bool.and_eq_true] at h
    simp [h, eq_comm]
  · rw [if_neg h]
    simp only [Bool.and_eq_true, not_and] at h
    simp only [reduceCtorEq, false_iff]
    rintro ⟨ha, hb, -⟩
    exact h ha hb

/-- A comparison that gives no answer raises a `TypeError`. -/
theorem compareDigest_eq_error {a b : PyStr} {e : PyError} (h : compareDigest a b = .error e) :
    e = .typeError := by
  unfold compareDigest at h
  split at h
  · cases h
  · exact (Except.error.inj h).symm

/-! ## The configured keys -/

/-- The service has the key in the configuration. -/
def Configured (lib : Lib) (configured : Json PyStr) (service key : PyStr) : Prop :=
  ∃ items value, configured = .obj items ∧ (service, value) ∈ items ∧ value.truthy = true ∧
    lib.str value = key

section
variable {d : List (PyStr × PyStr)} {key value : PyStr}

/-- What an assignment leaves in a `dict`. -/
theorem mem_dictSet {kv : PyStr × PyStr} (h : kv ∈ dictSet d key value) :
    kv = (key, value) ∨ kv ∈ d := by
  unfold dictSet at h
  split at h
  · obtain ⟨kv', hkv', rfl⟩ := List.mem_map.mp h
    by_cases hkey : kv'.1 = key
    · exact .inl (if_pos hkey)
    · rw [if_neg hkey]
      exact .inr hkv'
  · rcases List.mem_append.mp h with h | h
    · exact .inr h
    · exact .inl (List.mem_singleton.mp h)

/-- The keys of a `dict` stay distinct. -/
theorem nodup_dictSet (h : (d.map Prod.fst).Nodup) :
    ((dictSet d key value).map Prod.fst).Nodup := by
  unfold dictSet
  split
  · have hkeys : (d.map fun kv => if kv.1 = key then (key, value) else kv).map Prod.fst =
        d.map Prod.fst := by
      rw [List.map_map]
      refine List.map_congr_left fun kv _ => ?_
      by_cases hkey : kv.1 = key
      · simp [hkey]
      · simp [hkey]
    rw [hkeys]
    exact h
  · next hnew =>
    rw [List.map_append, List.nodup_append]
    refine ⟨h, by simp, fun k hk k' hk' heq => hnew ?_⟩
    obtain ⟨kv, hkv, rfl⟩ := List.mem_map.mp hk
    obtain rfl : k' = key := by simpa using hk'
    exact List.any_eq_true.mpr ⟨kv, hkv, by simpa using heq⟩

end

section
variable {lib : Lib} {configured : Json PyStr}

/-- What the loop over the configuration keeps, the keys have. -/
theorem apiKeys_induction {P : List (PyStr × PyStr) → Prop} (hnil : P [])
    (hset : ∀ d service value, P d → Configured lib configured service (lib.str value) →
      P (dictSet d (lib.str value) service)) : P (apiKeys lib configured) := by
  unfold apiKeys
  split
  · next items =>
    -- on the items to come, all of them of the configuration
    have hfold : ∀ (rest : List (PyStr × Json PyStr)) (d : List (PyStr × PyStr)),
        (∀ kv ∈ rest, kv ∈ items) → P d → P (rest.foldl (fun d kv =>
          if kv.2.truthy then dictSet d (lib.str kv.2) kv.1 else d) d) := by
      intro rest
      induction rest with
      | nil => exact fun d _ hd => hd
      | cons kv rest ih =>
        intro d hsub hd
        rw [List.foldl_cons]
        refine ih _ (fun kv' hkv' => hsub kv' (List.mem_cons_of_mem _ hkv')) ?_
        split
        · next htruthy =>
          exact hset d kv.1 kv.2 hd
            ⟨items, kv.2, rfl, hsub kv (List.mem_cons_self ..), htruthy, rfl⟩
        · exact hd
    exact hfold items [] (fun _ h => h) hnil
  · exact hnil

/-- The keys are distinct. -/
theorem nodup_apiKeys : ((apiKeys lib configured).map Prod.fst).Nodup :=
  apiKeys_induction (P := fun d => (d.map Prod.fst).Nodup) List.nodup_nil
    fun _ _ _ hd _ => nodup_dictSet hd

/-- Every key is one of the configuration. -/
theorem configured_of_mem {kv : PyStr × PyStr} (h : kv ∈ apiKeys lib configured) :
    Configured lib configured kv.2 kv.1 := by
  refine apiKeys_induction (P := fun d => ∀ kv ∈ d, Configured lib configured kv.2 kv.1)
    (fun _ h => absurd h List.not_mem_nil) (fun d service value hd hservice kv hkv => ?_) kv h
  rcases mem_dictSet hkv with rfl | hkv
  · exact hservice
  · exact hd kv hkv

end

/-! ## The loop over the keys -/

section
variable {presented matched found : PyStr} {keys : List (PyStr × PyStr)}

/-- **When the loop comes to its end**: it compares with every key. -/
theorem matchKeys_ok_iff : (∃ found, matchKeys presented matched keys = .ok found) ↔
    keys = [] ∨ presented.isAscii = true ∧ ∀ kv ∈ keys, kv.1.isAscii = true := by
  induction keys generalizing matched with
  | nil => simp [matchKeys]
  | cons kv rest ih =>
    obtain ⟨key, service⟩ := kv
    simp only [matchKeys, Except.bind_eq_ok]
    constructor
    · rintro ⟨found, equal, hequal, hrest⟩
      obtain ⟨hpresented, hkey, -⟩ := compareDigest_eq_ok.mp hequal
      refine .inr ⟨hpresented, fun kv hkv => ?_⟩
      rcases List.mem_cons.mp hkv with rfl | hkv
      · exact hkey
      · rcases ih.mp ⟨found, hrest⟩ with rfl | ⟨-, hall⟩
        · cases hkv
        · exact hall kv hkv
    · rintro (hnil | ⟨hpresented, hall⟩)
      · cases hnil
      · have hkey := hall (key, service) (List.mem_cons_self ..)
        obtain ⟨found, hfound⟩ := ih.mpr
          (.inr ⟨hpresented, fun kv hkv => hall kv (List.mem_cons_of_mem _ hkv)⟩)
        exact ⟨found, _, compareDigest_eq_ok.mpr ⟨hpresented, hkey, rfl⟩, hfound⟩

/-- What else the loop can end with. -/
theorem matchKeys_error {e : PyError} (h : matchKeys presented matched keys = .error e) :
    e = .typeError := by
  induction keys generalizing matched with
  | nil => cases h
  | cons kv rest ih =>
    obtain ⟨key, service⟩ := kv
    rw [matchKeys] at h
    cases hequal : compareDigest presented key with
    | error e' =>
      rw [hequal] at h
      obtain rfl := Except.error.inj h
      exact compareDigest_eq_error hequal
    | ok equal =>
      rw [hequal] at h
      exact ih h

/-- **What the loop has found**: the service of the presented key, or what it had before. -/
theorem matchKeys_ok (hnd : (keys.map Prod.fst).Nodup)
    (h : matchKeys presented matched keys = .ok found) :
    (presented, found) ∈ keys ∨ found = matched ∧ ∀ service, (presented, service) ∉ keys := by
  induction keys generalizing matched with
  | nil => exact .inr ⟨(Except.ok.inj h).symm, fun _ hmem => absurd hmem List.not_mem_nil⟩
  | cons kv rest ih =>
    obtain ⟨key, service⟩ := kv
    rw [List.map_cons, List.nodup_cons] at hnd
    obtain ⟨equal, hequal, hrest⟩ := Except.bind_eq_ok.mp h
    obtain ⟨-, -, rfl⟩ := compareDigest_eq_ok.mp hequal
    by_cases hkey : presented = key
    · -- the other keys are different
      subst hkey
      rw [if_pos (decide_eq_true rfl)] at hrest
      have hnone : ∀ service', (presented, service') ∉ rest := fun service' hmem =>
        hnd.1 (List.mem_map.mpr ⟨_, hmem, rfl⟩)
      rcases ih hnd.2 hrest with hmem | ⟨rfl, -⟩
      · exact absurd hmem (hnone _)
      · exact .inl (List.mem_cons_self ..)
    · rw [if_neg (by simpa using hkey)] at hrest
      rcases ih hnd.2 hrest with hmem | ⟨hfound, hnone⟩
      · exact .inl (List.mem_cons_of_mem _ hmem)
      · refine .inr ⟨hfound, fun service' hmem => ?_⟩
        rcases List.mem_cons.mp hmem with heq | hmem
        · exact hkey (Prod.mk.inj heq).1
        · exact hnone service' hmem

end

/-! ## The decisions -/

/-- `require_api_key` decides: it returns the service of the presented key, or raises 401
    because no service has that key. -/
def DecidesKey (lib : Lib) (configured : Json PyStr) (authorization xApiKey : Option String) :
    Prop :=
  let presented := presentedKey authorization xApiKey
  match requireApiKey lib configured authorization xApiKey with
  | .ok service => presented ≠ "" ∧ (.text presented, service) ∈ apiKeys lib configured ∧
      Configured lib configured service presented
  | .error (.httpException status _) => status = 401 ∧
      (presented = "" ∨ ∀ service : PyStr, service ≠ "" →
        (.text presented, service) ∉ apiKeys lib configured)
  | .error _ => False

/-- `verify_inbound_signature` decides: the body for the right signature, 503 without a
    secret, and else 401. -/
def DecidesSignature (hmacSha256 : List UInt8 → List UInt8 → Vector UInt8 32) (secret : PyStr)
    (signature hubSignature : Option String) (body : List UInt8) : Prop :=
  verifyInboundSignature hmacSha256 secret signature hubSignature body =
    if secret = "" then .error (.httpException 503 "inbound webhooks are not configured")
    else if sign hmacSha256 body secret = .ok (presentedSignature signature hubSignature) then
      .ok body
    else .error (.httpException 401 "bad signature")

section
variable {lib : Lib} {configured : Json PyStr} {authorization xApiKey : Option String}
  {hmacSha256 : List UInt8 → List UInt8 → Vector UInt8 32} {secret : PyStr}
  {signature hubSignature : Option String} {body : List UInt8}

/-- The key is decided on when the comparisons give answers. -/
theorem decidesKey_iff : DecidesKey lib configured authorization xApiKey ↔
    presentedKey authorization xApiKey = "" ∨ apiKeys lib configured = [] ∨
      isAscii (presentedKey authorization xApiKey) = true ∧
        ∀ kv ∈ apiKeys lib configured, kv.1.isAscii = true := by
  unfold DecidesKey requireApiKey
  generalize presentedKey authorization xApiKey = presented
  by_cases hempty : presented = ""
  · simp [hempty]
  simp only [hempty, if_false, false_or, ne_eq, not_false_eq_true, true_and]
  rw [← PyStr.isAscii_text, ← @matchKeys_ok_iff presented "" (apiKeys lib configured)]
  cases hmatch : matchKeys presented "" (apiKeys lib configured) with
  | error e =>
    obtain rfl := matchKeys_error hmatch
    simp [bind, Except.bind]
  | ok found =>
    refine iff_of_true ?_ ⟨found, rfl⟩
    by_cases hfound : found = ""
    · -- no key, or one of a service without a name
      simp only [bind, Except.bind, hfound, if_true, true_and]
      intro service hservice hmem
      rcases matchKeys_ok nodup_apiKeys hmatch with hmem' | ⟨-, hnone⟩
      · have heq := List.inj_on_of_nodup_map nodup_apiKeys hmem hmem' rfl
        exact hservice ((Prod.mk.inj heq).2.trans hfound)
      · exact hnone service hmem
    · simp only [bind, Except.bind, hfound, if_false]
      rcases matchKeys_ok nodup_apiKeys hmatch with hmem | ⟨hnone, -⟩
      · exact ⟨hmem, configured_of_mem hmem⟩
      · exact absurd hnone hfound

/-- Digits are ASCII. -/
theorem digitChar_ascii : ∀ n < 16, (Nat.digitChar n).toNat < 128 := by decide

/-- A signature is ASCII and not empty. -/
theorem sign_ascii {expected : String} (h : sign hmacSha256 body secret = .ok expected) :
    isAscii expected = true ∧ expected ≠ "" := by
  unfold sign at h
  split at h
  · next secret _ =>
    obtain rfl := Except.ok.inj h
    unfold hexdigest
    refine ⟨?_, fun hempty => ?_⟩
    · rw [isAscii, String.toList_ofList, List.all_eq_true]
      intro c hc
      obtain ⟨b, -, hb⟩ := List.mem_flatMap.mp hc
      simp only [List.mem_cons, List.not_mem_nil, or_false] at hb
      have hbyte := b.toNat_lt
      rcases hb with rfl | rfl
      · exact decide_eq_true (digitChar_ascii _ (by omega))
      · exact decide_eq_true (digitChar_ascii _ (by omega))
    · have hlen := congrArg String.length hempty
      simp [List.map_const'] at hlen
  · cases h

/-- A secret can be signed with when it has no surrogates. -/
theorem sign_cases : (∃ expected, sign hmacSha256 body secret = .ok expected) ∧
      secret.encode.isSome = true ∨
    sign hmacSha256 body secret = .error .unicodeEncodeError ∧ secret.encode.isSome = false := by
  cases secret with
  | text s => exact .inl ⟨⟨_, rfl⟩, rfl⟩
  | lone s => exact .inr ⟨rfl, rfl⟩

/-- The signature is decided on when the secret can be signed with and the comparison gives
    an answer. -/
theorem decidesSignature_iff :
    DecidesSignature hmacSha256 secret signature hubSignature body ↔
      secret = "" ∨ presentedSignature signature hubSignature = "" ∨
        secret.encode.isSome = true ∧
          isAscii (presentedSignature signature hubSignature) = true := by
  unfold DecidesSignature verifyInboundSignature
  generalize presentedSignature signature hubSignature = presented
  by_cases hsecret : secret = ""
  · simp [hsecret]
  by_cases hempty : presented = ""
  · subst hempty
    have hne : sign hmacSha256 body secret ≠ .ok "" := fun h => (sign_ascii h).2 rfl
    simp [hsecret, hne]
  dsimp only
  rw [if_neg hsecret, if_neg hsecret, if_neg hempty, or_iff_right hsecret, or_iff_right hempty]
  rcases @sign_cases hmacSha256 secret body with ⟨⟨expected, hsign⟩, hsome⟩ | ⟨hsign, hnone⟩
  · have hascii := (sign_ascii hsign).1
    rw [hsign, and_iff_right hsome]
    cases hcompare : compareDigest presented expected with
    | error e =>
      have hnot : ¬ isAscii presented = true := fun h => by
        have hequal := (@compareDigest_eq_ok presented expected _).mpr ⟨h, hascii, rfl⟩
        rw [hequal] at hcompare
        cases hcompare
      obtain rfl := compareDigest_eq_error hcompare
      refine iff_of_false (fun h => ?_) hnot
      simp only [bind, Except.bind, hcompare] at h
      split at h <;> cases h
    | ok equal =>
      obtain ⟨hpresented, -, rfl⟩ := compareDigest_eq_ok.mp hcompare
      replace hpresented : isAscii presented = true := hpresented
      simp [bind, Except.bind, hcompare, hpresented, eq_comm]
  · -- the exception of the encoding is no answer
    rw [hsign]
    refine iff_of_false (fun h => ?_) (by simp [hnone])
    simp [bind, Except.bind] at h

/-- **When authentication decides**: unless it compares a text that is not ASCII, or signs
    with a secret that has no encoding. -/
theorem auth_decides_iff :
    (DecidesKey lib configured authorization xApiKey ↔
      presentedKey authorization xApiKey = "" ∨ apiKeys lib configured = [] ∨
        isAscii (presentedKey authorization xApiKey) = true ∧
          ∀ kv ∈ apiKeys lib configured, kv.1.isAscii = true) ∧
    (DecidesSignature hmacSha256 secret signature hubSignature body ↔
      secret = "" ∨ presentedSignature signature hubSignature = "" ∨
        secret.encode.isSome = true ∧
          isAscii (presentedSignature signature hubSignature) = true) :=
  ⟨decidesKey_iff, decidesSignature_iff⟩

end

/-- With one key configured, an `X-API-Key` with an accent ends in a `TypeError`. -/
theorem not_decides_accent :
    ¬ DecidesKey Sample.lib (.obj [("svc", .str "k1")]) none (some "é") := by
  intro hdecides
  have hraised : requireApiKey Sample.lib (.obj [("svc", .str "k1")]) none (some "é") =
      .error .typeError := rfl
  unfold DecidesKey at hdecides
  rw [hraised] at hdecides
  exact hdecides

end SmsRelay
