import Socksv5.Client.Stores

/-!
# The requests of the client

The loop of `main` of `client.c` that comes after the login: a line is read into
`req`, written to the server, and what the server answers is received into
`response` and printed.  A `5` that begins a line is read together with the
character after it: with the end of the line it is the option that leaves, and
with any other character both of them are dropped.
-/

namespace Socksv5

open Support

/-- `REQUEST_LEN` -/
def requestLen : ℕ := 255

/-- The length of `response`. -/
def responseLen : ℕ := 1000

/-- What the loop over the characters of a line ends with: a request of `index`
characters, or `get_out`. -/
inductive RequestLine
  | request (req : Option Block) (index : ℕ)
  | getOut

/-- The loop when nothing more is typed.  `getchar` gives the character 255 for
ever then, until the request is too long. -/
def readRequestEnd (req : Option Block) (index : ℕ) :
    Except Fault (RequestLine × List UInt8) := do
  if index < requestLen then
    let _ ← putByte req index 255
    .error .exit
  else .error .exit

/-- The loop that reads a line, from what is typed; the rest of it is returned
too. -/
def readRequestLoop (req : Option Block) (index : ℕ) (first : Bool) :
    List UInt8 → Except Fault (RequestLine × List UInt8)
  | [] => readRequestEnd req index
  | c :: typed =>
      if c = 10 then .ok (.request req index, typed)
      else if c = 53 ∧ first = true then
        match typed with
        | [] => readRequestEnd req index
        | c :: typed =>
            if c = 10 then .ok (.getOut, typed)
            else readRequestLoop req index false typed
      else if requestLen ≤ index then .error .exit
      else do
        let req ← putByte req index c
        readRequestLoop req (index + 1) false typed

/-- A request is read, up to the call of `write`: the bytes that are written, or
`none` for `get_out`. -/
def readRequest (typed : List UInt8) (req : Option Block) :
    Except Fault (Option (List UInt8) × Option Block × List UInt8) := do
  let (line, typed) ← readRequestLoop req 0 true typed
  match line with
  | .getOut => .ok (none, req, typed)
  | .request req index => do
      let req ← putByte req index 10
      .ok (some ((req.getD []).take (index + 1)), req, typed)

/-- Where the client is in its loop. -/
inductive ClientState
  | reads
  | waits
  | over
deriving DecidableEq, Repr

/-- The variables of the loop. -/
structure Client where
  state : ClientState := .reads
  req : Option Block
  response : Block := List.replicate responseLen 0

/-- `recv` gives `bs`, which are stored in `response` and printed up to a
terminator. -/
def Client.shows (bs : List UInt8) (c : Client) : Except Fault (List UInt8 × Client) :=
  let response := bs ++ c.response.drop bs.length
  if 0 ∈ response then
    .ok (cString response, { c with state := .reads, response := response })
  else .error .outOfBounds

/-! ## What a line is read as -/

/-- The request of a line; `none` for the option that leaves. -/
def requestOf : List UInt8 → Option (List UInt8)
  | [53] => none
  | 53 :: _ :: request => some request
  | line => some line

/-- The request of a line has no newline. -/
theorem not_mem_of_requestOf {line request : List UInt8} (hline : 10 ∉ line)
    (h : requestOf line = some request) : 10 ∉ request := by
  unfold requestOf at h
  split at h
  · cases h
  · cases h
    exact fun hmem => hline (List.mem_cons_of_mem _ (List.mem_cons_of_mem _ hmem))
  · cases h
    exact hline

theorem readRequestLoop_newline (req : Option Block) (index : ℕ) (first : Bool)
    (typed : List UInt8) :
    readRequestLoop req index first (10 :: typed) =
      .ok (.request req index, typed) := by
  rw [readRequestLoop.eq_def]
  exact if_pos rfl

/-- A character that is stored, if there is room for it. -/
theorem readRequestLoop_char (req : Option Block) (index : ℕ) {first : Bool} {c : UInt8}
    (hc : c ≠ 10) (hfive : ¬ (c = 53 ∧ first = true)) (typed : List UInt8) :
    readRequestLoop req index first (c :: typed) =
      if requestLen ≤ index then .error .exit
      else putByte req index c >>= fun req =>
        readRequestLoop req (index + 1) false typed := by
  rw [readRequestLoop.eq_def]
  dsimp only
  rw [if_neg hc, if_neg hfive]

/-- The characters of a line are stored one after another. -/
theorem readRequestLoop_line {line rest junk : List UInt8} (pre : List UInt8)
    (first : Bool) (hline : 10 ∉ line) (hlen : pre.length + line.length ≤ requestLen)
    (hjunk : line.length ≤ junk.length) (hfirst : first = true → line.head? ≠ some 53) :
    readRequestLoop (some (pre ++ junk)) pre.length first (line ++ 10 :: rest) =
      .ok (.request (some (pre ++ line ++ junk.drop line.length))
        (pre ++ line).length, rest) := by
  induction line generalizing pre junk first with
  | nil => simp [readRequestLoop_newline]
  | cons c cs ih =>
      rw [List.mem_cons, not_or] at hline
      cases junk with
      | nil => simp at hjunk
      | cons d junk =>
          have hfive : ¬ (c = 53 ∧ first = true) := by
            rintro ⟨rfl, hf⟩
            exact hfirst hf rfl
          have hindex : ¬ requestLen ≤ pre.length := by
            rw [List.length_cons] at hlen
            omega
          have hcount : (pre ++ [c]).length = pre.length + 1 := by simp
          rw [List.cons_append, readRequestLoop_char _ _ (Ne.symm hline.1) hfive,
            if_neg hindex, putByte_append, ok_bind, ← hcount, List.append_cons,
            ih (pre ++ [c]) false hline.2 ?_ (by simpa using hjunk) (by simp)]
          · simp
          · rw [hcount]
            rw [List.length_cons] at hlen
            omega

/-- A line with too many characters ends the program, and so does the end of what
is typed. -/
theorem readRequestLoop_exit {line rest junk : List UInt8} (pre : List UInt8)
    (first : Bool) (hline : 10 ∉ line)
    (hlong : rest = [] ∨ requestLen < pre.length + line.length)
    (hpre : pre.length ≤ requestLen) (hjunk : requestLen ≤ pre.length + junk.length)
    (hfirst : first = true → line.head? ≠ some 53) :
    readRequestLoop (some (pre ++ junk)) pre.length first (line ++ rest) =
      .error .exit := by
  induction line generalizing pre junk first with
  | nil =>
      rcases hlong with rfl | hlong
      · rw [List.append_nil, readRequestLoop, readRequestEnd]
        by_cases hindex : pre.length < requestLen
        · rw [if_pos hindex, putByte, if_pos (by simp only [List.length_append]; omega)]
          rfl
        · rw [if_neg hindex]
      · rw [List.length_nil] at hlong
        omega
  | cons c cs ih =>
      rw [List.mem_cons, not_or] at hline
      have hfive : ¬ (c = 53 ∧ first = true) := by
        rintro ⟨rfl, hf⟩
        exact hfirst hf rfl
      rw [List.cons_append, readRequestLoop_char _ _ (Ne.symm hline.1) hfive]
      by_cases hindex : requestLen ≤ pre.length
      · rw [if_pos hindex]
      · cases junk with
        | nil =>
            rw [List.length_nil] at hjunk
            omega
        | cons d junk =>
            have hcount : (pre ++ [c]).length = pre.length + 1 := by simp
            rw [List.length_cons] at hlong hjunk
            rw [if_neg hindex, putByte_append, ok_bind, ← hcount, List.append_cons]
            apply ih (pre ++ [c]) false hline.2
            · rw [hcount]
              exact hlong.imp_right fun h => by omega
            · omega
            · omega
            · simp

/-- With the first `5` and what follows it, the loop does what it does without
them. -/
theorem readRequestLoop_five (req : Option Block) (index : ℕ) {c : UInt8}
    (hc : c ≠ 10) (typed : List UInt8) :
    readRequestLoop req index true (53 :: c :: typed) =
      readRequestLoop req index false typed := by
  rw [readRequestLoop.eq_def]
  dsimp only
  rw [if_neg (by decide), if_pos ⟨rfl, rfl⟩, if_neg hc]

/-- The loop reads the request of a line. -/
theorem readRequestLoop_requestOf {line request : List UInt8} (req : Option Block)
    (hline : 10 ∉ line) (hrequest : requestOf line = some request) :
    ∃ first, (first = true → request.head? ≠ some 53) ∧ ∀ typed,
      readRequestLoop req 0 true (line ++ typed) =
        readRequestLoop req 0 first (request ++ typed) := by
  unfold requestOf at hrequest
  split at hrequest
  · cases hrequest
  · cases hrequest
    rename_i c
    have hc : c ≠ 10 := by
      rintro rfl
      simp at hline
    exact ⟨false, by simp, fun _ => readRequestLoop_five req 0 hc _⟩
  · rename_i hone hmore
    cases hrequest
    refine ⟨true, fun _ hhead => ?_, fun _ => rfl⟩
    rcases line with - | ⟨c, - | ⟨d, line⟩⟩
    · cases hhead
    · cases hhead
      exact hone rfl
    · cases hhead
      exact hmore d line rfl

variable {line request block : List UInt8}

/-- The option that leaves. -/
theorem readRequest_getOut (req : Option Block) (rest : List UInt8)
    (hrequest : requestOf line = none) :
    readRequest (line ++ 10 :: rest) req = .ok (none, req, rest) := by
  unfold requestOf at hrequest
  split at hrequest
  · rfl
  · cases hrequest
  · cases hrequest

/-- A request that is not too long is written with its newline. -/
theorem readRequest_request (rest : List UInt8) (hline : 10 ∉ line)
    (hrequest : requestOf line = some request) (hlen : request.length ≤ requestLen)
    (hblock : block.length = requestLen + 2) :
    ∃ block', block'.length = requestLen + 2 ∧
      readRequest (line ++ 10 :: rest) (some block) =
        .ok (some (request ++ [10]), some block', rest) := by
  obtain ⟨first, hfirst, heq⟩ := readRequestLoop_requestOf (some block) hline hrequest
  have hloop : readRequestLoop (some ([] ++ block)) ([] : List UInt8).length first
      (request ++ 10 :: rest) = _ :=
    readRequestLoop_line [] first (not_mem_of_requestOf hline hrequest)
      (by simpa using hlen) (by omega) hfirst
  rw [List.nil_append, List.nil_append, List.length_nil] at hloop
  cases hdrop : block.drop request.length with
  | nil =>
      rw [List.drop_eq_nil_iff] at hdrop
      omega
  | cons d tail =>
      rw [hdrop] at hloop
      refine ⟨request ++ 10 :: tail, ?_, ?_⟩
      · have hcount := congrArg List.length hdrop
        rw [List.length_drop, List.length_cons] at hcount
        simp only [List.length_append, List.length_cons]
        omega
      · rw [readRequest, heq, hloop, ok_bind]
        dsimp only
        rw [putByte_append, ok_bind]
        have htake : (request ++ 10 :: tail).take (request.length + 1) = request ++ [10] := by
          simp [List.take_append]
        rw [Option.getD_some, htake]

/-- A request that is too long ends the client. -/
theorem readRequest_long (rest : List UInt8) (hline : 10 ∉ line)
    (hrequest : requestOf line = some request) (hlen : requestLen < request.length)
    (hblock : block.length = requestLen + 2) :
    readRequest (line ++ 10 :: rest) (some block) = .error .exit := by
  obtain ⟨first, hfirst, heq⟩ := readRequestLoop_requestOf (some block) hline hrequest
  have hloop : readRequestLoop (some ([] ++ block)) ([] : List UInt8).length first
      (request ++ 10 :: rest) = _ :=
    readRequestLoop_exit [] first (not_mem_of_requestOf hline hrequest)
      (.inr (by simpa using hlen)) (Nat.zero_le _) (by omega) hfirst
  rw [List.nil_append, List.length_nil] at hloop
  rw [readRequest, heq, hloop]
  rfl

/-- The end of what is typed ends the client. -/
theorem readRequest_end (hline : 10 ∉ line) (hblock : block.length = requestLen + 2) :
    readRequest line (some block) = .error .exit := by
  have hexit : ∀ (request : List UInt8) (first : Bool), 10 ∉ request →
      (first = true → request.head? ≠ some 53) →
      readRequestLoop (some block) 0 first request = .error .exit := by
    intro request first hnot hfirst
    have hloop : readRequestLoop (some ([] ++ block)) ([] : List UInt8).length first
        (request ++ []) = _ :=
      readRequestLoop_exit [] first hnot (.inl rfl) (Nat.zero_le _) (by omega) hfirst
    rwa [List.append_nil] at hloop
  have hloop : readRequestLoop (some block) 0 true line = .error .exit := by
    cases hrequest : requestOf line with
    | some request =>
        obtain ⟨first, hfirst, heq⟩ :=
          readRequestLoop_requestOf (some block) hline hrequest
        have hrequest' := heq []
        rw [List.append_nil, List.append_nil] at hrequest'
        rw [hrequest']
        exact hexit request first (not_mem_of_requestOf hline hrequest) hfirst
    | none =>
        unfold requestOf at hrequest
        split at hrequest
        · rw [readRequestLoop, if_neg (by decide), if_pos ⟨rfl, rfl⟩]
          exact hexit [] false List.not_mem_nil (by simp)
        · cases hrequest
        · cases hrequest
  rw [readRequest, hloop]
  rfl

end Socksv5
