import SmsRelay.Native.Config

/-!
# Phone number normalization

`sms_relay/phone.py`: every number crossing the API boundary is stored in E.164.
-/

namespace SmsRelay

/-- `normalize(raw)`.  Callers pass `str` values, but `android_gateway_inbound` and
    `topic_for` hand over whatever the JSON had, and `raw.strip` is missing on a
    truthy value that is not a `str`. -/
def normalize {σ : Type} [Str σ] (lib : Lib) (cfg : Settings) (raw : Json σ) :
    Except PyError String :=
  if raw.truthy then
    match raw with
    | .str s =>
      let candidate := (Str.toPyStr s).strip
      if candidate = "" then .error (.invalidPhoneNumber "phone number is empty")
      else
        match lib.phonenumbers candidate cfg.defaultRegion with
        | .unparsable exc =>
          .error (.invalidPhoneNumber
            ("could not parse " ++ lib.reprStr candidate ++ ": " ++ exc))
        | .invalid =>
          .error (.invalidPhoneNumber (lib.reprStr candidate ++ " is not a valid phone number"))
        | .valid e164 => .ok e164
    | _ => .error .attributeError
  else .error (.invalidPhoneNumber "phone number is empty")

end SmsRelay
