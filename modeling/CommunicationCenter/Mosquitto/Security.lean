import CommunicationCenter.Mosquitto.TopicMatch

open libc wildcard

namespace communication_center.mosquitto

inductive acl_access where
  | MOSQ_ACL_READ
  | MOSQ_ACL_WRITE
  | MOSQ_ACL_SUBSCRIBE
  | MOSQ_ACL_UNSUBSCRIBE
  deriving DecidableEq

/-- The check of topics that begin with `$`. -/
def acl_check_dollar (topic : Text) (access : acl_access) : mosq_err_t :=
  if topic.head? ≠ some dollar then .MOSQ_ERR_SUCCESS
  else if topic.take 4 = ascii "$SYS" then
    if access = .MOSQ_ACL_WRITE then
      match mosquitto_topic_matches_sub (ascii "$SYS/broker/connection/+/state") topic with
      | .ok true => .MOSQ_ERR_SUCCESS
      | _ => .MOSQ_ERR_ACL_DENIED
    else .MOSQ_ERR_SUCCESS
  else if topic.take 6 = ascii "$share" then
    if access = .MOSQ_ACL_SUBSCRIBE ∨ access = .MOSQ_ACL_UNSUBSCRIBE then .MOSQ_ERR_SUCCESS
    else .MOSQ_ERR_ACL_DENIED
  else .MOSQ_ERR_SUCCESS

/-- There are no plugins, so that nothing else is checked. -/
def mosquitto_acl_check (topic : Text) (access : acl_access) : mosq_err_t :=
  acl_check_dollar topic access

theorem mosquitto_acl_check_subscribe (sub : Text) :
    mosquitto_acl_check sub .MOSQ_ACL_SUBSCRIBE = .MOSQ_ERR_SUCCESS := by
  simp [mosquitto_acl_check, acl_check_dollar]

/-- A message that was allowed to be published is allowed to be delivered: without an ACL file,
reading is allowed wherever writing is. -/
theorem mosquitto_acl_check_read {topic : Text}
    (h : mosquitto_acl_check topic .MOSQ_ACL_WRITE = .MOSQ_ERR_SUCCESS) :
    mosquitto_acl_check topic .MOSQ_ACL_READ = .MOSQ_ERR_SUCCESS := by
  unfold mosquitto_acl_check acl_check_dollar at h ⊢
  by_cases hdollar : topic.head? ≠ some dollar
  · rw [if_pos hdollar]
  rw [if_neg hdollar] at h ⊢
  by_cases hsys : topic.take 4 = ascii "$SYS"
  · rw [if_pos hsys, if_neg (by simp)]
  rw [if_neg hsys] at h ⊢
  by_cases hshare : topic.take 6 = ascii "$share"
  · rw [if_pos hshare, if_neg (by simp)] at h
    cases h
  · rw [if_neg hshare]

/-- The group of a shared subscription is not a topic to publish on, so that no message is taken
for one to a group. -/
theorem ne_share_of_write {topic rest : Text}
    (h : mosquitto_acl_check topic .MOSQ_ACL_WRITE = .MOSQ_ERR_SUCCESS) :
    topic ≠ ascii "$share" ++ rest := by
  have hsys : ascii "$SYS" ≠ ascii "$sha" := by decide
  have hhead : (ascii "$share").head? = some dollar := by decide
  rintro rfl
  have htake : (ascii "$share" ++ rest).take 6 = ascii "$share" := List.take_left' rfl
  have htake4 : (ascii "$share" ++ rest).take 4 = ascii "$sha" := by
    rw [List.take_append_of_le_length (by decide)]
    rfl
  have hfirst : (ascii "$share" ++ rest).head? = some dollar := by
    rw [List.head?_append, hhead]
    rfl
  rw [mosquitto_acl_check, acl_check_dollar, if_neg (not_not_intro hfirst), htake4,
    if_neg hsys.symm, htake, if_pos rfl, if_neg (by simp)] at h
  cases h

end communication_center.mosquitto
