import CommunicationCenter.Libc.Text

open libc

namespace communication_center.http_server

inductive httpd_err_code_t where
  | HTTPD_400_BAD_REQUEST
  | HTTPD_403_FORBIDDEN
  deriving DecidableEq

structure HttpError where
  error : httpd_err_code_t
  msg : String
  deriving DecidableEq

/-- The outcome of one `httpd_req_recv`: a negative code, or the bytes delivered. -/
inductive RecvResult where
  | fail (code : Int)
  | bytes (data : List UInt8)
  deriving DecidableEq

structure httpd_req_t where
  content_len : Nat
  recv : RecvResult
  deriving DecidableEq

/-- The checks with which every POST handler begins, and the text of the body in
a buffer of the given size. A negative result never equals the content length. -/
def read_body (buf_size : Nat) (req : httpd_req_t) : Except HttpError Text :=
  if req.content_len ≤ 0 ∨ req.content_len ≥ buf_size then
    .error ⟨.HTTPD_400_BAD_REQUEST, "len"⟩
  else match req.recv with
    | .fail _ => .error ⟨.HTTPD_400_BAD_REQUEST, "recv"⟩
    | .bytes data =>
      if data.length ≠ req.content_len then .error ⟨.HTTPD_400_BAD_REQUEST, "recv"⟩
      else .ok (cstr data)

/-- A request whose whole body arrives in one read. -/
def httpd_req_t.delivered (body : List UInt8) : httpd_req_t where
  content_len := body.length
  recv := .bytes body

theorem read_body_delivered {buf_size : Nat} {body : List UInt8} (hpositive : 0 < body.length)
    (hfits : body.length < buf_size) : read_body buf_size (.delivered body) = .ok (cstr body) := by
  have hlen : ¬(body.length ≤ 0 ∨ body.length ≥ buf_size) := by omega
  rw [read_body, httpd_req_t.delivered, if_neg hlen]
  simp

theorem read_body_refused {buf_size : Nat} {body : List UInt8}
    (h : body.length = 0 ∨ buf_size ≤ body.length) :
    read_body buf_size (.delivered body) = .error ⟨.HTTPD_400_BAD_REQUEST, "len"⟩ := by
  have hlen : body.length ≤ 0 ∨ body.length ≥ buf_size := h.imp_left Nat.le_zero.mpr
  rw [read_body, httpd_req_t.delivered, if_pos hlen]

end communication_center.http_server
