import RecordWire.Chat.Demo
/-!
# The chat demonstration as a program

Prints the chat protocol's codes, runs the demonstration and prints the client's log, then
writes the user store to `chat-messages-users.txt` in the temporary directory (`TMPDIR`, else
`/tmp`), reads it back and prints each user's record.
-/

open RecordWire

/-- Runs the chat demonstration. -/
def main : IO UInt32 := do
  for (c, r) in Chat.protocol.byCode do
    let d := catalog.descriptor r
    IO.println s!"registered code={c} pdu={d.name} size={d.size}"
  match Chat.runDemo with
  | .error e =>
    IO.eprintln e.message
    return 1
  | .ok run =>
    IO.println s!"server processed uplink handled={run.served}"
    for line in run.log do
      IO.println line
    IO.println s!"client processed downlink handled={run.received}"
  let dir := (← IO.getEnv "TMPDIR").getD "/tmp"
  let path := dir ++ "/chat-messages-users.txt"
  IO.FS.writeFile path Chat.usersFile
  match catalog.readRecords (.record .userInfo) (← IO.FS.readFile path) with
  | .error e =>
    IO.eprintln e.message
    return 1
  | .ok users =>
    IO.println s!"user store reloaded path={path} count={users.length}"
    for u in users do
      IO.println ("user record=" ++ catalog.toText (.record .userInfo) u)
    return 0
