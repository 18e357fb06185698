import SocialNetwork.EventService.OrderTheorems

/-!
# Likes received

`likes_received` of a user would be a join: of the events that like a post, by the post, with
those that create the posts, by their author. The consumer writes the field when a `UserCreated`
creates the document, and never again.
-/

namespace SocialNetwork.EventService

open DocStore

/-- The `post_id` of an event that creates a post for an author. -/
def Body.createdBy (u : Key) (b : Body) : Option Value :=
  match b.kind?, item? b.value "payload" with
  | some (.PostCreated author_id), some payload =>
    if author_id = u then item? payload "post_id" else none
  | _, _ => none

/-- The post that an event likes. -/
def Body.liked (b : Body) : Option Value :=
  match b.kind? with
  | some (.PostLiked post_id) => some post_id.val
  | _ => none

/-- The number of likes of the posts of a user. -/
def likesOf (u : Key) (bodies : List Body) : Nat :=
  bodies.countP fun b => b.liked.any fun post_id => post_id ∈ bodies.filterMap (Body.createdBy u)

/-- The field of a user's document. -/
def likes_received (db : Db) (u : Key) : Option Value :=
  (readModel db .user_activity_view u).bind fun F => F "likes_received"

/-- The field is zero for the users that their `UserCreated` created, and absent for others. -/
theorem likes_received_consume {bodies : List Body} (hw : ∀ b ∈ bodies, WellFormed b)
    (hs : ∀ b ∈ bodies, ScalarIds b) (hids : (bodies.map fun b => b.event_id?).Nodup) (u : Key) :
    likes_received (consume Db.empty bodies) u =
      if createdFirst (kinds bodies) u then some (.int 0) else none := by
  have hviews := (consume_views views_empty hw hs hids fun _ _ _ _ => rfl).2
  have hempty : readModel Db.empty .user_activity_view u =
      ReadModel.empty .user_activity_view u := rfl
  unfold likes_received
  rw [hviews .user_activity_view (by decide) u, ReadModel.run_congr hempty,
    ReadModel.run_likes_received]

/-- **Likes received.** After any new events with distinct ids, all scalars, in any order, the field
counts the likes of a user's posts just if there are none and the user's first event was its
`UserCreated`. -/
theorem likes_received_iff {bodies : List Body} (hw : ∀ b ∈ bodies, WellFormed b)
    (hs : ∀ b ∈ bodies, ScalarIds b) (hids : (bodies.map fun b => b.event_id?).Nodup) (u : Key) :
    likes_received (consume Db.empty bodies) u = some (.int (likesOf u bodies)) ↔
      likesOf u bodies = 0 ∧ createdFirst (kinds bodies) u = true := by
  rw [likes_received_consume hw hs hids u]
  split_ifs with hfirst
  · rw [Option.some.injEq, Value.int.injEq]
    constructor
    · intro hzero
      exact ⟨by omega, hfirst⟩
    · intro hzero
      omega
  · constructor
    · intro hnone
      cases hnone
    · intro hcreated
      exact absurd hcreated.2 hfirst

/-- A user and a post that nobody likes. -/
theorem likes_received_iff_unliked :
    likes_received (consume Db.empty [userCreated "e-1" "u-1" "alice", postCreated "e-2" "u-1"])
      "u-1" = some (.int (likesOf "u-1" [userCreated "e-1" "u-1" "alice", postCreated "e-2" "u-1"])) :=
  (likes_received_iff (by simp [wellFormed_userCreated, wellFormed_postCreated])
    (by simp [scalarIds_userCreated, scalarIds_postCreated]) (by decide) "u-1").mpr (by decide)

def postLiked (event_id post_id : String) : Body :=
  sample event_id "PostLiked" [("post_id", post_id), ("user_id", "u-2")]

theorem wellFormed_postLiked (event_id post_id : String) : WellFormed (postLiked event_id post_id) :=
  wellFormed_event (by decide) (by simp [branchFields, item?])

/-- A user, its post and a like. -/
def likedPost : List Body :=
  [userCreated "e-1" "u-1" "alice", postCreated "e-2" "u-1", postLiked "e-3" "p-1"]

/-- The like is counted for the post and not for the user. -/
theorem likedPost_not_received :
    (∀ b ∈ likedPost, WellFormed b) ∧ (likedPost.map fun b => b.event_id?).Nodup ∧
      likesOf "u-1" likedPost = 1 ∧
      likes_received (consume Db.empty likedPost) "u-1" = some (.int 0) ∧
      (readModel (consume Db.empty likedPost)).counter .likes_count "p-1" = 1 := by
  refine ⟨?_, by decide, by decide, by decide, by decide⟩
  simp [likedPost, wellFormed_userCreated, wellFormed_postCreated, wellFormed_postLiked]

end SocialNetwork.EventService
