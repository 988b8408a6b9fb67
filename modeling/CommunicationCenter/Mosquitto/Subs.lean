import CommunicationCenter.Mosquitto.Security
import CommunicationCenter.Trie.Forest
import Mathlib.Logic.Function.Basic

open libc trie

namespace communication_center.mosquitto

inductive mosquitto_protocol where
  | mosq_p_mqtt31
  | mosq_p_mqtt311
  | mosq_p_mqtt5
  deriving DecidableEq

abbrev MQTT_SUB_OPT_NO_LOCAL : UInt8 := 0x04
abbrev MQTT_SUB_OPT_RETAIN_AS_PUBLISHED : UInt8 := 0x08

abbrev MQTT_RC_NO_SUBSCRIPTION_EXISTED : UInt8 := 17

/-- A client's subscription at a node. The context is named by its id. -/
structure mosquitto_subleaf where
  context : Text
  qos : UInt8
  identifier : UInt32
  no_local : Bool
  retain_as_published : Bool
  deriving DecidableEq

/-- The subscriptions at a node, and the groups of the shared ones. -/
@[ext]
structure mosquitto_subnode where
  subs : List mosquitto_subleaf
  shared : List (Text × List mosquitto_subleaf)

abbrev mosquitto_subhier := Trie Text mosquitto_subnode

/-- A node to which nothing was added. -/
def mosquitto_subnode.new : mosquitto_subnode where
  subs := []
  shared := []

def mosquitto_subnode.unused (node : mosquitto_subnode) : Bool :=
  node.subs.isEmpty && node.shared.isEmpty

/-- The node of a subscription, named by the levels that lead to it, and the group
of a shared one. -/
structure mosquitto_client_sub where
  hier : List Text
  shared : Option Text
  deriving DecidableEq

/-- The trees by their first level, and the subscriptions that each context keeps. -/
structure mosquitto_subs where
  normal_subs : List (Text × mosquitto_subhier)
  shared_subs : List (Text × mosquitto_subhier)
  subs : Text → List (Option mosquitto_client_sub)

/-- The trees that are there from the start. -/
def db_subs : mosquitto_subs where
  normal_subs := [([], .node .new []), (ascii "$SYS", .node .new [])]
  shared_subs := [([], .node .new [])]
  subs := fun _ => []

/-- What is queued for a client. -/
structure delivery where
  context : Text
  qos : UInt8
  retain : Bool
  identifier : UInt32
  deriving DecidableEq

/-- A message on its way to the subscribers. -/
structure routed_msg where
  source_id : Option Text
  topic : Text
  qos : UInt8
  retain : Bool

/-- What a part of the search has queued, and whether it came to subscribers. -/
structure search_result where
  deliveries : List delivery
  have_subscribers : Bool

def search_result.nothing : search_result := ⟨[], false⟩

def search_result.andThen (first second : search_result) : search_result :=
  ⟨first.deliveries ++ second.deliveries, first.have_subscribers || second.have_subscribers⟩

/-- A message as a subscription asks for it. -/
def delivery_to (leaf : mosquitto_subleaf) (m : routed_msg) : delivery where
  context := leaf.context
  qos := if m.qos > leaf.qos then leaf.qos else m.qos
  retain := leaf.retain_as_published && m.retain
  identifier := leaf.identifier

def subs_send (leaf : mosquitto_subleaf) (m : routed_msg) : List delivery :=
  if mosquitto_acl_check m.topic .MOSQ_ACL_READ = .MOSQ_ERR_SUCCESS then [delivery_to leaf m]
  else []

/-- The first member of each group gets the message, and goes to the end. -/
def subs_shared_process (m : routed_msg) :
    List (Text × List mosquitto_subleaf) → List (Text × List mosquitto_subleaf) × List delivery
  | [] => ([], [])
  | (name, []) :: shared =>
    ((name, []) :: (subs_shared_process m shared).1, (subs_shared_process m shared).2)
  | (name, leaf :: leaves) :: shared =>
    ((name, leaves ++ [leaf]) :: (subs_shared_process m shared).1,
      subs_send leaf m ++ (subs_shared_process m shared).2)

/-- A client does not get its own message where it asked for that. -/
def is_local (m : routed_msg) (leaf : mosquitto_subleaf) : Bool :=
  leaf.no_local && m.source_id == some leaf.context

def subs_process (m : routed_msg) (hier : mosquitto_subnode) : mosquitto_subnode × search_result :=
  let shared := subs_shared_process m hier.shared
  let normal := if m.source_id.isSome then
      (hier.subs.filter fun leaf => !is_local m leaf).flatMap (subs_send · m)
    else []
  ({ hier with shared := shared.1 }, ⟨shared.2 ++ normal, !hier.unused⟩)

def subs_process_branch (m : routed_msg) (branch : mosquitto_subhier) :
    mosquitto_subhier × search_result :=
  (.node (subs_process m branch.value).1 branch.children, (subs_process m branch.value).2)

/-- Go on below the branch with this name, and take its own subscriptions after
the last level. -/
def sub_search_branch (m : routed_msg) (search : mosquitto_subhier → mosquitto_subhier × search_result)
    (last : Bool) (name : Text) (subhier : mosquitto_subhier) : mosquitto_subhier × search_result :=
  match subhier.child name with
  | none => (subhier, .nothing)
  | some branch =>
    let below := search branch
    let here := if last then subs_process_branch m below.1 else (below.1, .nothing)
    (subhier.replace name here.1, below.2.andThen here.2)

def sub_search_multi (m : routed_msg) (subhier : mosquitto_subhier) :
    mosquitto_subhier × search_result :=
  match subhier.child [hash] with
  | none => (subhier, .nothing)
  | some branch =>
    if branch.children = [] then
      (subhier.replace [hash] (subs_process_branch m branch).1, (subs_process_branch m branch).2)
    else (subhier, .nothing)

def sub_search (m : routed_msg) :
    List Text → mosquitto_subhier → mosquitto_subhier × search_result
  | [], subhier => sub_search_multi m subhier
  | name :: split_topics, subhier =>
    let literal := sub_search_branch m (sub_search m split_topics) split_topics.isEmpty name subhier
    let single :=
      sub_search_branch m (sub_search m split_topics) split_topics.isEmpty [plus] literal.1
    let multi := sub_search_multi m single.1
    (multi.1, (literal.2.andThen single.2).andThen multi.2)

/-- A client that subscribes again gets another QoS and another identifier. -/
def sub_add_leaf (context : Text) (qos : UInt8) (identifier : UInt32) (options : UInt8) :
    List mosquitto_subleaf → List mosquitto_subleaf × mosq_err_t
  | [] =>
    ([{ context := context
        qos := qos
        identifier := identifier
        no_local := options &&& MQTT_SUB_OPT_NO_LOCAL != 0
        retain_as_published := options &&& MQTT_SUB_OPT_RETAIN_AS_PUBLISHED != 0 }],
      .MOSQ_ERR_SUCCESS)
  | leaf :: head =>
    if leaf.context = context then
      ({ leaf with qos := qos, identifier := identifier } :: head, .MOSQ_ERR_SUB_EXISTS)
    else
      (leaf :: (sub_add_leaf context qos identifier options head).1,
        (sub_add_leaf context qos identifier options head).2)

/-- The first free place of a context's array, or a new one at its end. -/
def sub_add_client_sub (csub : mosquitto_client_sub) :
    List (Option mosquitto_client_sub) → List (Option mosquitto_client_sub)
  | [] => [some csub]
  | none :: subs => some csub :: subs
  | some other :: subs => some other :: sub_add_client_sub csub subs

def sub_remove_client_sub (csub : mosquitto_client_sub) :
    List (Option mosquitto_client_sub) → List (Option mosquitto_client_sub)
  | [] => []
  | other :: subs => if other = some csub then none :: subs else other :: sub_remove_client_sub csub subs

/-- The tree with this first level, which is added where there is none. -/
def sub_root (subs : List (Text × mosquitto_subhier)) (topics : List Text) : mosquitto_subhier :=
  root .new (topics.headD []) subs

/-- Change one node of the trees. -/
def sub_update (f : mosquitto_subnode → mosquitto_subnode) (topics : List Text)
    (subs : List (Text × mosquitto_subhier)) : List (Text × mosquitto_subhier) :=
  alter (topics.headD []) (fun subhier =>
    some ((subhier.getD (.node .new [])).update .new f topics)) subs

/-- Change one node, and take away the ones that are not needed any more. The
first node of a tree stays. -/
def sub_remove_recurse (f : mosquitto_subnode → mosquitto_subnode) (topics : List Text)
    (subs : List (Text × mosquitto_subhier)) : List (Text × mosquitto_subhier) :=
  alter (topics.headD []) (fun subhier => subhier.map (Trie.prune mosquitto_subnode.unused f topics)) subs

/-- The members of a group, which is added where there is none. -/
def sub_group (sharename : Text) (hier : mosquitto_subnode) : List mosquitto_subleaf :=
  (find sharename hier.shared).getD []

def sub_remove_leaf (context : Text) (leaves : List mosquitto_subleaf) : List mosquitto_subleaf :=
  leaves.eraseP fun leaf => leaf.context = context

/-- A group is deleted with its last member. -/
def sub_remove_shared_leaf (context sharename : Text) (hier : mosquitto_subnode) : mosquitto_subnode :=
  { hier with shared := alter sharename (fun leaves =>
      (leaves.map (sub_remove_leaf context)).filter fun leaves => !leaves.isEmpty) hier.shared }

def sub_remove_normal_leaf (context : Text) (hier : mosquitto_subnode) : mosquitto_subnode :=
  { hier with subs := sub_remove_leaf context hier.subs }

def has_leaf (context : Text) (leaves : List mosquitto_subleaf) : Bool :=
  leaves.any fun leaf => leaf.context = context

/-- What is answered to a client that has the subscription already. -/
def sub_add_result (protocol : mosquitto_protocol) (rc : mosq_err_t) : mosq_err_t :=
  if protocol = .mosq_p_mqtt31 ∨ protocol = .mosq_p_mqtt5 then rc else .MOSQ_ERR_SUCCESS

def sub_add_csub (context : Text) (csub : mosquitto_client_sub) (rc : mosq_err_t)
    (subs : Text → List (Option mosquitto_client_sub)) : Text → List (Option mosquitto_client_sub) :=
  if rc = .MOSQ_ERR_SUB_EXISTS then subs
  else Function.update subs context (sub_add_client_sub csub (subs context))

def sub_add_shared (context : Text) (qos : UInt8) (identifier : UInt32) (options : UInt8)
    (topics : List Text) (sharename : Text) (db : mosquitto_subs) : mosq_err_t × mosquitto_subs :=
  let leaf := sub_add_leaf context qos identifier options
  let rc := (leaf (sub_group sharename ((sub_root db.shared_subs topics).get .new topics))).2
  let add (hier : mosquitto_subnode) : mosquitto_subnode := { hier with
    shared := alter sharename (fun leaves => some (leaf (leaves.getD [])).1) hier.shared }
  (rc, { db with
    shared_subs := sub_update add topics db.shared_subs,
    subs := sub_add_csub context ⟨topics, some sharename⟩ rc db.subs })

def sub_add_normal (context : Text) (qos : UInt8) (identifier : UInt32) (options : UInt8)
    (topics : List Text) (db : mosquitto_subs) : mosq_err_t × mosquitto_subs :=
  let leaf := sub_add_leaf context qos identifier options
  let rc := (leaf ((sub_root db.normal_subs topics).get .new topics).subs).2
  let add (hier : mosquitto_subnode) : mosquitto_subnode :=
    { hier with subs := (leaf hier.subs).1 }
  (rc, { db with
    normal_subs := sub_update add topics db.normal_subs,
    subs := sub_add_csub context ⟨topics, none⟩ rc db.subs })

/-- The levels that a tree can hold. -/
def fits_hier (topic : Text) : Bool :=
  topic.length ≤ 65535

def sub_add (context : Text) (protocol : mosquitto_protocol) (sub : Text) (qos : UInt8)
    (identifier : UInt32) (options : UInt8) (db : mosquitto_subs) : mosq_err_t × mosquitto_subs :=
  match sub_topic_tokenise sub with
  | .error rc => (rc, db)
  | .ok (topics, sharename) =>
    if !fits_hier (topics.headD []) then (.MOSQ_ERR_INVAL, db)
    else if !topics.all fits_hier then
      -- the levels before the long one are added
      (.MOSQ_ERR_INVAL, match sharename with
        | some _ => { db with shared_subs := sub_update id (topics.takeWhile fits_hier) db.shared_subs }
        | none => { db with normal_subs := sub_update id (topics.takeWhile fits_hier) db.normal_subs })
    else
      let added := match sharename with
        | some sharename => sub_add_shared context qos identifier options topics sharename db
        | none => sub_add_normal context qos identifier options topics db
      (sub_add_result protocol added.1, added.2)

def sub_remove_csub (context : Text) (csub : mosquitto_client_sub)
    (subs : Text → List (Option mosquitto_client_sub)) : Text → List (Option mosquitto_client_sub) :=
  Function.update subs context (sub_remove_client_sub csub (subs context))

/-- The reason is changed only where there is a tree for the filter. -/
def sub_remove (context sub : Text) (reason : UInt8) (db : mosquitto_subs) :
    mosq_err_t × UInt8 × mosquitto_subs :=
  match sub_topic_tokenise sub with
  | .error rc => (rc, reason, db)
  | .ok (topics, some sharename) =>
    if (find (topics.headD []) db.shared_subs).isNone then (.MOSQ_ERR_SUCCESS, reason, db)
    else
      let found := has_leaf context (sub_group sharename ((sub_root db.shared_subs topics).get .new topics))
      (.MOSQ_ERR_SUCCESS, if found then 0 else MQTT_RC_NO_SUBSCRIPTION_EXISTED,
        { db with
          shared_subs := sub_remove_recurse (sub_remove_shared_leaf context sharename) topics
            db.shared_subs,
          subs := if found then sub_remove_csub context ⟨topics, some sharename⟩ db.subs else db.subs })
  | .ok (topics, none) =>
    if (find (topics.headD []) db.normal_subs).isNone then (.MOSQ_ERR_SUCCESS, reason, db)
    else
      let found := has_leaf context ((sub_root db.normal_subs topics).get .new topics).subs
      (.MOSQ_ERR_SUCCESS, if found then 0 else MQTT_RC_NO_SUBSCRIPTION_EXISTED,
        { db with
          normal_subs := sub_remove_recurse (sub_remove_normal_leaf context) topics db.normal_subs,
          subs := if found then sub_remove_csub context ⟨topics, none⟩ db.subs else db.subs })

/-- Take away the subscription at one place of a context's array. -/
def sub_clean_one (context : Text) (csub : mosquitto_client_sub) (db : mosquitto_subs) : mosquitto_subs :=
  match csub.shared with
  | some sharename =>
    let remove := sub_remove_shared_leaf context sharename
    { db with shared_subs := sub_remove_recurse remove csub.hier db.shared_subs }
  | none =>
    let remove := sub_remove_normal_leaf context
    { db with normal_subs := sub_remove_recurse remove csub.hier db.normal_subs }

/-- Remove all subscriptions for a client. -/
def sub_clean_session (context : Text) (db : mosquitto_subs) : mosquitto_subs :=
  let cleaned := (db.subs context).reduceOption.foldl (fun db csub => sub_clean_one context csub db) db
  { cleaned with subs := Function.update cleaned.subs context [] }

/-- Search one of the two lists of trees. -/
def sub_search_subs (m : routed_msg) (split_topics : List Text)
    (subs : List (Text × mosquitto_subhier)) : List (Text × mosquitto_subhier) × search_result :=
  match find (split_topics.headD []) subs with
  | none => (subs, .nothing)
  | some subhier =>
    (alter (split_topics.headD []) (fun _ => some (sub_search m split_topics subhier).1) subs,
      (sub_search m split_topics subhier).2)

/-- The part of the function that queues a message for its subscribers. -/
def sub_messages_queue_subs (m : routed_msg) (split_topics : List Text) (db : mosquitto_subs) :
    mosquitto_subs × search_result :=
  let normal := sub_search_subs m split_topics db.normal_subs
  let shared := sub_search_subs m split_topics db.shared_subs
  ({ db with normal_subs := normal.1, shared_subs := shared.1 }, normal.2.andThen shared.2)

end communication_center.mosquitto
