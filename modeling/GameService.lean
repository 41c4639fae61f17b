import GameService.Lib.Run
import GameService.Queue.Delay
import GameService.Queue.Drain
import GameService.Queue.Order
import GameService.World.NearBy
import GameService.World.Broadcast
import GameService.World.Departure
import GameService.World.Index
import GameService.World.Membership
import GameService.World.Mutex
import GameService.World.Registration
import GameService.World.Sight
import GameService.World.Surroundings
import GameService.World.Startup
import GameService.World.Trail
import GameService.Session.Writes
import GameService.Player.Failure
import GameService.Player.Gain
import GameService.Player.Migration
import GameService.Player.Move
import GameService.Player.Whereabouts
import GameService.Session.Exits
import GameService.Session.Framing
import GameService.Session.Isolation
import GameService.Session.Lifetime
import GameService.Timer.Interval
import GameService.Timer.Periodic
import GameService.Timer.Sleep
import GameService.CommonUtil
import GameService.Auth.Expiry
import GameService.Network.Accept
import GameService.Network.Pruning
import GameService.Session.Prototypes
import GameService.Session.Rejection
import GameService.Asset.Reading
import GameService.Service.Beats
import GameService.Service.Mail
import GameService.Service.Told
