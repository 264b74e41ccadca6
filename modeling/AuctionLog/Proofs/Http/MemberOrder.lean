import AuctionLog.Proofs.Http.Discretion
import AuctionLog.Proofs.Json.Reordered

/-!
# Posted events in another order

What a posted event comes to, the answer, the counters and the line of its record alike, does not
depend on the order that the members of its body are written in, nor on blanks between them. Names
that differ in case only are no exception: which of them is the last one is decided after they have
been put in order. Only a body that is too long to be read is told apart.
-/

namespace AuctionLog.Http

open Json

def stringMember (name value : String) : List StringLiteral.Piece × Written :=
  (StringLiteral.spelled name, .str (StringLiteral.spelled value))

/-- An auction with these headers, as it is reported. -/
def auctionWithHeaders (headers : List (List StringLiteral.Piece × Written)) : Written :=
  .obj
    [ stringMember "event" "/openrtb2/auction"
    , (StringLiteral.spelled "httpContext",
        .obj [(StringLiteral.spelled "headers", .obj headers)]) ]

namespace Site

variable {site : Site} {request other : Request} {station : Station}

theorem pathLabel_of_postsEvent (hposts : request.PostsEvent) :
    site.pathLabel request = Route.event.path := by
  rw [pathLabel, routeFor?_eq_event_iff.mpr hposts.2]
  rfl

/-- A posted event is answered and counted by what becomes of its body, whatever else the request
says. -/
theorem handle_of_postsEvent (hposts : request.PostsEvent) :
    site.handle request station =
      let (response, after) := site.acceptEvent request.body station
      let labels : RequestLabels := ⟨"POST", Route.event.path, response.status⟩
      (response, (after.count (.requests labels)).count (.durations labels)) := by
  have hcounted : isCounted Route.event.path := by decide
  simp only [handle, answer_of_postsEvent hposts, pathLabel_of_postsEvent hposts, hcounted,
    if_true, hposts.1]

theorem record?_of_postsEvent (hposts : request.PostsEvent)
    (hsize : request.body.length ≤ maxBody) :
    request.record? = (Json.parse request.body).toOption.bind fun value =>
      (Event.record (Intake.ofJson value).event).toOption := by
  rw [Request.record?, if_pos ⟨hposts, hsize⟩]
  cases Json.parse request.body <;> rfl

theorem status_of_longer (hposts : request.PostsEvent) (hsize : maxBody < request.body.length) :
    (site.handle request station).1.status = 413 := by
  rw [handle_eq_toPosted hposts, Response.toPosted, if_pos hsize]
  rfl

/-- Bodies that are read as one value are acknowledged with the same result. If one is not read,
the other is not either. -/
theorem acceptEvent_alike {body other : List UInt8} (hsize : body.length ≤ maxBody)
    (hsize' : other.length ≤ maxBody)
    (halike : (Json.parse body).toOption = (Json.parse other).toOption) :
    let first := site.acceptEvent body station
    let second := site.acceptEvent other station
    (first.1.status = 200 ∧ second.1 = first.1 ∨
        first.1.status = 400 ∧ second.1.status = 400) ∧ second.2 = first.2 := by
  intro first second
  simp only [first, second, acceptEvent, if_neg (Nat.not_lt.mpr hsize),
    if_neg (Nat.not_lt.mpr hsize')]
  cases hbody : Json.parse body with
  | error fault =>
      cases hother : Json.parse other with
      | error fault => exact ⟨.inr ⟨rfl, rfl⟩, rfl⟩
      | ok value => simp [hbody, hother, Except.toOption] at halike
  | ok value =>
      cases hother : Json.parse other with
      | error fault => simp [hbody, hother, Except.toOption] at halike
      | ok twin =>
          obtain rfl : value = twin := by simpa [hbody, hother, Except.toOption] using halike
          refine ⟨.inl ⟨?_, rfl⟩, rfl⟩
          cases site.recorder <;> rfl

/-- **The order of members does not matter**, nor do blanks: of two bodies that differ in nothing
else, both are acknowledged or neither is, and they ask for the same record and leave the same
behind at the station. Only a body that is too long is never acknowledged, and every body that is
acknowledged is a value as it is written. -/
theorem handle_reordered (site : Site) (station : Station) {request other : Request}
    {written reordered : Written} (hposts : request.PostsEvent) (hother : other.PostsEvent)
    (hspells : Spells request.body written) (hspells' : Spells other.body reordered)
    (hreordered : written.Reordered reordered) (hunrepeated : written.Unrepeated)
    (hsize : request.body.length ≤ maxBody) (hsize' : other.body.length ≤ maxBody) :
    let first := site.handle request station
    let second := site.handle other station
    (first.1.status = 200 ∧ second.1 = first.1 ∨
        first.1.status = 400 ∧ second.1.status = 400) ∧
      second.2 = first.2 ∧ other.record? = request.record? ∧
      (∀ long : Request, long.PostsEvent → maxBody < long.body.length →
        (site.handle long station).1.status = 413) ∧
      ∀ posted : Request, posted.PostsEvent → (site.handle posted station).1.status = 200 →
        ∃ spelled, Spells posted.body spelled := by
  intro first second
  have halike := parse_reordered hspells hspells' hreordered hunrepeated
  obtain ⟨hanswer, hstation⟩ := @acceptEvent_alike site station _ _ hsize hsize' halike
  have hstatus : (site.acceptEvent other.body station).1.status =
      (site.acceptEvent request.body station).1.status := by
    rcases hanswer with ⟨-, hsame⟩ | ⟨hfirst, hsecond⟩
    · rw [hsame]
    · rw [hfirst, hsecond]
  have hfirst := @handle_of_postsEvent site _ station hposts
  have hsecond := @handle_of_postsEvent site _ station hother
  refine ⟨?_, ?_, ?_, fun long => status_of_longer, ?_⟩
  · simpa only [first, second, hfirst, hsecond] using hanswer
  · simp only [first, second, hfirst, hsecond, hstation, hstatus]
  · rw [record?_of_postsEvent hposts hsize, record?_of_postsEvent hother hsize', halike]
  · intro posted hposted hstatus
    obtain ⟨-, spelled, -, hspelled, -⟩ := (handle_status_eq_ok_iff hposted).mp hstatus
    exact ⟨spelled, hspelled⟩

/-- The headers of a request with a name in both cases, in one order and in the other, where the
text has blanks. -/
theorem handle_reordered_headers :
    let site : Site := ⟨some ⟨Recorder.defaultName, Encoder.json⟩, false⟩
    let written := auctionWithHeaders [stringMember "A" "1", stringMember "a" "2"]
    let reordered := auctionWithHeaders [stringMember "a" "2", stringMember "A" "1"]
    let request : Request := ⟨"POST", "/event", written.text []⟩
    let other : Request := ⟨"POST", "/event", reordered.text [0x0A, 0x20]⟩
    written.Reordered reordered ∧ written.Unrepeated ∧ request.body ≠ other.body ∧
      (site.handle other (.start (.memory []))).2 = (site.handle request (.start (.memory []))).2 ∧
      other.record? = request.record? := by
  intro site written reordered request other
  have hposts : request.PostsEvent := by decide
  have hother : other.PostsEvent := hposts
  have hreordered : written.Reordered reordered :=
    .of_member [_] [] (.of_member [] [] (.of_perm (List.Perm.swap ..)))
  have hunrepeated : written.Unrepeated := by
    refine .obj (by decide) (List.forall_mem_cons.mpr ⟨.str _, List.forall_mem_singleton.mpr ?_⟩)
    refine .obj (by decide) (List.forall_mem_singleton.mpr ?_)
    refine .obj (by decide) (List.forall_mem_cons.mpr ⟨.str _, List.forall_mem_singleton.mpr ?_⟩)
    exact .str _
  have hspells := @Written.spells_text [] nofun written
  have hspells' := @Written.spells_text [0x0A, 0x20] (by simp [isBlank]) reordered
  have hsize : request.body.length ≤ maxBody ∧ other.body.length ≤ maxBody := by decide +kernel
  have hbodies : request.body ≠ other.body := by decide +kernel
  obtain ⟨-, hstation, hrecord, -⟩ := handle_reordered site (.start (.memory [])) hposts hother
    hspells hspells' hreordered hunrepeated hsize.1 hsize.2
  exact ⟨hreordered, hunrepeated, hbodies, hstation, hrecord⟩

/-- A body is acknowledged that is not with many blanks behind it. -/
theorem handle_of_many_blanks :
    let site : Site := ⟨some ⟨Recorder.defaultName, Encoder.json⟩, false⟩
    let null : Request := ⟨"POST", "/event", Written.null.text []⟩
    let blank : Request :=
      ⟨"POST", "/event", Written.null.text [] ++ List.replicate 2097152 0x20⟩
    null.PostsEvent ∧ blank.PostsEvent ∧ Spells null.body .null ∧ Spells blank.body .null ∧
      Written.null.Reordered .null ∧ Written.null.Unrepeated ∧
      (site.handle null (.start (.memory []))).1.status = 200 ∧
      (site.handle blank (.start (.memory []))).1.status = 413 := by
  intro site null blank
  have hspells := @Written.spells_text [] nofun .null
  have hblanks : ∀ byte ∈ List.replicate 2097152 (0x20 : UInt8), isBlank byte := by
    intro byte hmem
    rw [List.eq_of_mem_replicate hmem]
    rfl
  have hposts : null.PostsEvent := by decide
  have hposts' : blank.PostsEvent := hposts
  have hlong : maxBody < blank.body.length := by
    rw [List.length_append, List.length_replicate]
    decide
  refine ⟨hposts, hposts', hspells, hspells.append_blanks hblanks, .null, .null, ?_,
    status_of_longer hposts' hlong⟩
  rw [handle_eq_toPosted hposts]
  rfl

end Site

end AuctionLog.Http
