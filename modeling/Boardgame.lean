import Boardgame.Frontier.Expansion
import Boardgame.Frontier.Whole
import Boardgame.Frontier.Winner
import Boardgame.Lib.Rotation
import Boardgame.Kingdoms.Turns
import Boardgame.Kingdoms.Safety
import Boardgame.Kingdoms.Loyalty
import Boardgame.Kingdoms.Survivor
import Boardgame.Kingdoms.Upkeep
import Boardgame.Kingdoms.Calendar
import Boardgame.Kingdoms.Ending
import Boardgame.Kingdoms.Limits
import Boardgame.Kingdoms.Preview
import Boardgame.Kingdoms.Muster
import Boardgame.Kingdoms.Supply
import Boardgame.Kingdoms.Cycles
import Boardgame.Kingdoms.Rings
import Boardgame.Kingdoms.Terrain
import Boardgame.Kingdoms.Develop
import Boardgame.Kingdoms.Pieces
import Boardgame.Chance.Generator
import Boardgame.Frontier.Journal
import Boardgame.Kingdoms.Journal
import Boardgame.Core.Elimination
import Boardgame.Core.Rules
import Boardgame.Core.Snake
import Boardgame.Engine.Concurrent
import Boardgame.Engine.Finished
import Boardgame.Lobby.Access
import Boardgame.Lobby.Launch
import Boardgame.Lobby.Starts
import Boardgame.Web.AttackSource
import Boardgame.Web.Bootstrap
import Boardgame.Web.Kingdoms
import Boardgame.Realtime.Delivery
import Boardgame.EventBus.Topology
import Boardgame.Platform.Authority
import Boardgame.Engine.Fleet
import Boardgame.Web.ActionPanel
import Boardgame.Realtime.Broadcast
