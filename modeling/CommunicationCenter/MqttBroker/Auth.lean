import CommunicationCenter.Libc.Search

open libc

namespace communication_center.mqtt_broker

/-- A binary field of a packet: nothing for length zero, else a buffer to which
a NUL was appended. -/
def packet_read_binary (field : List UInt8) : Option (List UInt8) :=
  if field = [] then none else some field

/-- Zero accepts the client. Arguments that can be NULL are options. -/
def mqtt_auth_cb (_client_id : Text) (username password : Option Text) (password_len : Nat) : Int :=
  if username = some (ascii "esp32") ∧
      ∃ p ∈ password, strncmp p (ascii "1234") password_len = 0 then 0
  else 1

/-- The call of the connect callback by the broker port for the user name and
password fields of a CONNECT packet. -/
def connect_callback (client_id : Text) (username : Option CString)
    (password_field : Option (List UInt8)) : Int :=
  let password := (password_field.bind packet_read_binary).map cstr
  let password_len := (password.map List.length).getD 0
  mqtt_auth_cb client_id (username.map CString.text) password password_len

/-- The callback accepts every nonempty password field whose bytes before the
first NUL are a prefix of the password. -/
theorem connect_callback_eq_zero_iff (client_id : Text) (username : Option CString)
    (password_field : Option (List UInt8)) :
    connect_callback client_id username password_field = 0 ↔
      username.map CString.text = some (ascii "esp32") ∧
        ∃ field ∈ password_field, field ≠ [] ∧ cstr field <+: ascii "1234" := by
  have hcompare (field : List UInt8) :
      strncmp (cstr field) (ascii "1234") (cstr field).length = 0 ↔ cstr field <+: ascii "1234" := by
    rw [strncmp_eq_zero_iff (zero_notMem_cstr field) (by decide), List.take_length,
      List.prefix_iff_eq_take]
  unfold connect_callback mqtt_auth_cb
  generalize username.map CString.text = user
  cases password_field with
  | none => simp
  | some field =>
    by_cases hempty : field = []
    · simp [hempty, packet_read_binary]
    · simp [hempty, packet_read_binary, hcompare]

/-- The verdict is right unless the user name is right and the password field is not, but reads as
a prefix of the password up to its first NUL. The user name may be any string or missing, the
password field any bytes or missing, and the client may call itself anything. -/
theorem connect_callback_exact_iff (client_id : Text) (username : Option CString)
    (password_field : Option (List UInt8)) :
    (connect_callback client_id username password_field = 0 ↔
        username.map CString.text = some (ascii "esp32") ∧ password_field = some (ascii "1234")) ↔
      (username.map CString.text = some (ascii "esp32") → ∀ field ∈ password_field,
        field = [] ∨ field = ascii "1234" ∨ ¬ cstr field <+: ascii "1234") := by
  rw [connect_callback_eq_zero_iff]
  by_cases huser : username.map CString.text = some (ascii "esp32")
  · cases password_field with
    | none => simp
    | some field =>
      by_cases hright : field = ascii "1234"
      · subst hright
        simp [huser]
        decide
      · simp [huser, hright]
        tauto
  · simp [huser]

private def esp32 : CString where
  text := ascii "esp32"
  nonzero := by decide

/-- One digit of the password is enough, since the comparison has the length that the client sent.
-/
theorem connect_callback_accepts_prefix :
    ¬ ∀ (client_id : Text) (username : Option CString) (password_field : Option (List UInt8)),
      connect_callback client_id username password_field = 0 ↔
        username.map CString.text = some (ascii "esp32") ∧
          password_field = some (ascii "1234") := by
  intro h
  have haccept : connect_callback (ascii "c") (some esp32) (some (ascii "1")) = 0 := by decide
  exact absurd ((h _ _ _).mp haccept).2 (by decide)

end communication_center.mqtt_broker
