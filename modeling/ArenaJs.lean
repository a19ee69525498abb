import ArenaJs.Alloc.BlockHeader
import ArenaJs.Alloc.Ranges
import ArenaJs.Alloc.Budget
import ArenaJs.Alloc.Reset
import ArenaJs.Atoms.Failure
import ArenaJs.Freeze.Hazards
import ArenaJs.Request.Pins
import ArenaJs.Replay.Semantics
import ArenaJs.Replay.Cursor
import ArenaJs.Replay.Sha256
import ArenaJs.Replay.Tape
import ArenaJs.Replay.Random
import ArenaJs.Alloc.Family
import ArenaJs.Request.Result
import ArenaJs.Trace.Names
import ArenaJs.Trace.Stop
import ArenaJs.Trace.Observe
import ArenaJs.Engine.ShadowTab
import ArenaJs.Collections.Keys
import ArenaJs.Shapes.Run
import ArenaJs.Text.Base64
