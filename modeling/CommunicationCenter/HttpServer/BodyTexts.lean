import CommunicationCenter.HttpServer.Control
import CommunicationCenter.HttpServer.ScheduleLoop
import CommunicationCenter.Libc.ScanTokens

open libc communication_center.system_state

namespace communication_center.http_server

def colon : Text := [58]
def comma : Text := [44]

/-- The text at a key `"mode"` from which the handler reads the mode. -/
def ModeText (found : Text) (new_mode : Int) : Prop :=
  ∃ numeral text rest, found = ascii "\"mode\"" ++ text ∧ IntText numeral new_mode ∧
    EndsNumeral rest ∧ Tokens isspace [colon, numeral] rest text

/-- The text at a key `"start"` from which the loop reads one period. -/
def PeriodText (found : Text) (period : schedule_period_t) : Prop :=
  ∃ numeral text rest, found = start_key ++ text ∧ QuotedField 5 period.start ∧
    QuotedField 5 period.end_ ∧ IntText numeral period.mode ∧ EndsNumeral rest ∧
    Tokens isspace [colon, quoted period.start, comma, ascii "\"end\"", colon, quoted period.end_,
      comma, ascii "\"mode\"", colon, numeral] rest text

/-- The text at a key `"window"` from which the handler reads the four values. -/
def ActuatorsText (found : Text) (r : ActuatorsRequest) : Prop :=
  ∃ window fan door absorber text rest, found = ascii "\"window\"" ++ text ∧
    IntText window r.new_window ∧ IntText fan r.new_fan ∧ IntText door r.new_door ∧
    IntText absorber r.new_absorber ∧ EndsNumeral rest ∧
    Tokens isspace [colon, window, comma, ascii "\"fan\"", colon, fan, comma, ascii "\"door\"", colon,
      door, comma, ascii "\"absorber\"", colon, absorber] rest text

/-- A token whose first character is no white space is found behind any. -/
theorem visible_of_head {token : Text} (h : token.head?.any (!isspace ·) = true) : Visible token := by
  cases token with
  | nil => cases h
  | cons c rest => exact ⟨c, rest, rfl, by simpa using h⟩

/-- The same for all tokens of a list. -/
theorem visible_tokens {tokens : List Text}
    (h : tokens.all (fun token => token.head?.any (!isspace ·)) = true) :
    ∀ token ∈ tokens, Visible token := by
  intro token htoken
  exact visible_of_head (List.all_eq_true.mp h token htoken)

def between_times : List Text := [comma, ascii "\"end\"", colon]
def before_mode : List Text := [comma, ascii "\"mode\"", colon]

/-- What the format string of a period asks for, directive by directive. -/
theorem period_directives :
    directives (ascii "\"start\" : \"%5[^\"]\" , \"end\" : \"%5[^\"]\" , \"mode\" : %d") =
      literals start_key ++ (gaps [colon] ++ (quoted_field 5 ++ (gaps between_times ++
        (quoted_field 5 ++ (gaps before_mode ++ [.space, .int]))))) := by
  decide +kernel

/-- The scanner reads a period exactly from the texts that show one. These may go on behind the
mode in any way, and a time may have any one to five characters without a quote. -/
theorem scan_period_eq_some_iff {found : Text} {period : schedule_period_t} :
    scan_period found = some period ↔ PeriodText found period := by
  unfold scan_period sscanf
  rw [period_directives]
  constructor
  · intro h
    split at h
    · next start end_ mode hscan =>
      obtain rfl := Option.some.inj h
      obtain ⟨text, hfound, hkey⟩ := scan_literals_inv (by rw [hscan]; simp)
      rw [hkey] at hscan
      obtain ⟨text1, hstart, htokens1, hscan⟩ := scan_gaps_quoted_inv hscan (List.cons_ne_nil _ _)
      obtain ⟨text2, hend, htokens2, hscan⟩ := scan_gaps_quoted_inv hscan (List.cons_ne_nil _ _)
      obtain ⟨numeral, rest, hnumeral, hends, htokens3, _⟩ := scan_gaps_int_inv hscan
      exact ⟨numeral, text, rest, hfound, hstart, hend, hnumeral, hends,
        htokens1.append (htokens2.append htokens3)⟩
    · cases h
  · rintro ⟨numeral, text, rest, rfl, hstart, hend, hnumeral, hends, htokens⟩
    obtain ⟨text1, htokens1, htokens⟩ := Tokens.split ([colon] ++ [quoted period.start]) htokens
    obtain ⟨text2, htokens2, htokens3⟩ := Tokens.split (between_times ++ [quoted period.end_]) htokens
    rw [scan_literals, scan_gaps_quoted (visible_tokens (by decide)) hstart htokens1,
      scan_gaps_quoted (visible_tokens (by decide)) hend htokens2,
      scan_gaps_int (visible_tokens (by decide)) hnumeral hends htokens3]
    rfl

/-- What the format string of a mode asks for. -/
theorem mode_directives :
    directives (ascii "\"mode\" : %d") =
      literals (ascii "\"mode\"") ++ (gaps [colon] ++ [.space, .int]) := by
  decide

/-- The scanner reads a mode exactly from the texts that show one: the key, a colon and an integer,
with any white space between them. -/
theorem scan_mode_iff {found : Text} {new_mode : Int} :
    sscanf found "\"mode\" : %d" = [.int new_mode] ↔ ModeText found new_mode := by
  unfold sscanf
  rw [mode_directives]
  constructor
  · intro hscan
    obtain ⟨text, hfound, hkey⟩ := scan_literals_inv (by rw [hscan]; simp)
    rw [hkey] at hscan
    obtain ⟨numeral, rest, hnumeral, hends, htokens, _⟩ := scan_gaps_int_inv hscan
    exact ⟨numeral, text, rest, hfound, hnumeral, hends, htokens⟩
  · rintro ⟨numeral, text, rest, rfl, hnumeral, hends, htokens⟩
    rw [scan_literals, scan_gaps_int (visible_tokens (by decide)) hnumeral hends htokens]
    rfl

def before_fan : List Text := [comma, ascii "\"fan\"", colon]
def before_door : List Text := [comma, ascii "\"door\"", colon]
def before_absorber : List Text := [comma, ascii "\"absorber\"", colon]

/-- What the format string of the actuators asks for. -/
theorem actuators_directives :
    directives (ascii "\"window\" : %d , \"fan\" : %d , \"door\" : %d , \"absorber\" : %d") =
      literals (ascii "\"window\"") ++ (gaps [colon] ++ (.space :: .int ::
        (gaps before_fan ++ (.space :: .int :: (gaps before_door ++ (.space :: .int ::
          (gaps before_absorber ++ [.space, .int]))))))) := by
  decide +kernel

/-- In front of a comma a numeral is over, also with white space in between. -/
theorem endsNumeral_of_comma {tokens : List Text} {rest text : Text}
    (h : Tokens isspace (comma :: tokens) rest text) : EndsNumeral text := by
  cases h with
  | @cons blanks _ _ text _ hblanks _ =>
    refine .blanks hblanks fun c hc => ?_
    obtain rfl : (44 : UInt8) = c := Option.some.inj hc
    decide

/-- The scanner reads all four actuators exactly from the texts that show them in its order, with
nothing but white space between the tokens. The numbers need not be 0 or 1 here. -/
theorem scan_actuators_iff {found : Text} {r : ActuatorsRequest} :
    sscanf found "\"window\" : %d , \"fan\" : %d , \"door\" : %d , \"absorber\" : %d" =
        [.int r.new_window, .int r.new_fan, .int r.new_door, .int r.new_absorber] ↔
      ActuatorsText found r := by
  unfold sscanf
  rw [actuators_directives]
  constructor
  · intro hscan
    obtain ⟨text, hfound, hkey⟩ := scan_literals_inv (by rw [hscan]; simp)
    rw [hkey] at hscan
    obtain ⟨window, text1, hwindow, _, htokens1, hscan⟩ := scan_gaps_int_inv hscan
    obtain ⟨fan, text2, hfan, _, htokens2, hscan⟩ := scan_gaps_int_inv hscan
    obtain ⟨door, text3, hdoor, _, htokens3, hscan⟩ := scan_gaps_int_inv hscan
    obtain ⟨absorber, rest, habsorber, hends, htokens4, _⟩ := scan_gaps_int_inv hscan
    exact ⟨window, fan, door, absorber, text, rest, hfound, hwindow, hfan, hdoor, habsorber, hends,
      htokens1.append (htokens2.append (htokens3.append htokens4))⟩
  · rintro ⟨window, fan, door, absorber, text, rest, rfl, hwindow, hfan, hdoor, habsorber, hends,
      htokens⟩
    obtain ⟨text1, htokens1, htokens⟩ := Tokens.split ([colon] ++ [window]) htokens
    have hends1 := endsNumeral_of_comma htokens
    obtain ⟨text2, htokens2, htokens⟩ := Tokens.split (before_fan ++ [fan]) htokens
    have hends2 := endsNumeral_of_comma htokens
    obtain ⟨text3, htokens3, htokens4⟩ := Tokens.split (before_door ++ [door]) htokens
    have hends3 := endsNumeral_of_comma htokens4
    rw [scan_literals, scan_gaps_int (visible_tokens (by decide)) hwindow hends1 htokens1,
      scan_gaps_int (visible_tokens (by decide)) hfan hends2 htokens2,
      scan_gaps_int (visible_tokens (by decide)) hdoor hends3 htokens3,
      scan_gaps_int (visible_tokens (by decide)) habsorber hends htokens4]
    rfl

end communication_center.http_server
